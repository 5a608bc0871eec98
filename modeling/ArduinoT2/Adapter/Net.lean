import ArduinoT2.Adapter.TklWifiState
import Mathlib.Logic.Function.Basic

/-
  The IP side of the two network interfaces (net.c): the settings, the start flags, the calls that
  start and stop an interface, and its status callbacks.

  lwIP is no part of the sources. An interface is up or down, has its addresses, a status callback
  and a DHCP record, and `Lwip` is what a start and a stop of DHCP leave in the record. The
  interface runs its status callback when it goes up or down. Of the callbacks, the reports to the
  application are left out. `log` records the runs of the status callback and what is set as the
  station status.
-/

namespace ArduinoT2.Adapter

/-! ## lwIP -/

/-- `dhcp_state_enum_t`. -/
inductive DhcpState
  | off | requesting | init | rebooting | rebinding | renewing | selecting | informing | checking
  | permanent | bound | releasing | backingOff
  deriving DecidableEq

/-- What `dhcp_start` and `dhcp_stop` leave in the DHCP record of an interface. Both keep the
    record attached to it, and the second one ends a binding. -/
structure Lwip where
  dhcpStart : Option DhcpState → DhcpState
  dhcpStop : DhcpState → DhcpState
  dhcpStop_ne : ∀ state, dhcpStop state ≠ .bound

/-- While the link is up: `dhcp_start` selects an offer, and `dhcp_stop` turns DHCP off. -/
def Lwip.linkUp : Lwip := ⟨fun _ => .selecting, fun _ => .off, fun _ => by decide⟩

/-- The status callbacks of net.c. -/
inductive StatusCallback
  | wmNetifStatusStaticCallback | wmNetifStatusCallback
  deriving DecidableEq

/-- `struct netif`: `dhcp` is the state in the DHCP record, if there is one, and `dhcpRuns` is
    whether a DHCP client runs. -/
structure Netif where
  up : Bool
  ipAddr : UInt32
  netmask : UInt32
  gw : UInt32
  statusCallback : Option StatusCallback
  dhcp : Option DhcpState
  dhcpRuns : Bool

/-! ## State -/

/-- `ADDR_TYPE_DHCP` and `ADDR_TYPE_STATIC`. -/
inductive AddrType
  | dhcp | static
  deriving DecidableEq

/-- `struct ipv4_config`. -/
structure Ipv4Config where
  addrType : AddrType
  address : UInt32
  gw : UInt32
  netmask : UInt32
  dns1 : UInt32
  dns2 : UInt32
  deriving DecidableEq

/-- `g_mlan` and `g_uap`. -/
inductive Iface
  | mlan | uap
  deriving DecidableEq

/-- A run of `wm_netif_status_callback`, with what it sees of the interface and what it sets, or
    a status that is set elsewhere. -/
inductive StatusEvent
  | callback (up : Bool) (dhcp : Option DhcpState) (type : Option RwEvtType)
  | set (type : RwEvtType)
  deriving DecidableEq

/-- The variables of net.c, the interfaces, the DHCP server, the DNS servers, and the status of
    the station. -/
structure NetState where
  staIpSettings : Ipv4Config
  uapIpSettings : Ipv4Config
  staIpStartFlag : UInt32
  uapIpStartFlag : UInt32
  netif : Iface → Netif
  dhcpdRunning : Bool
  dns : UInt32 × UInt32
  stationStatus : RwEvtType
  log : List StatusEvent

/-- An interface that has been added. -/
def Netif.added : Netif := ⟨false, 0, 0, 0, none, none, false⟩

/-- The state before the first call: the settings are all 0. -/
def NetState.static : NetState where
  staIpSettings := ⟨.dhcp, 0, 0, 0, 0, 0⟩
  uapIpSettings := ⟨.dhcp, 0, 0, 0, 0, 0⟩
  staIpStartFlag := 0
  uapIpStartFlag := 0
  netif := fun _ => .added
  dhcpdRunning := false
  dns := (0, 0)
  stationStatus := .staIdle
  log := []

/-- `mhdr_set_station_status`. -/
def mhdrSetStationStatus (s : NetState) (type : RwEvtType) : NetState :=
  { s with stationStatus := type, log := s.log ++ [.set type] }

/-! ## Status callbacks -/

/-- What `wm_netif_status_callback` sets: a success or a failure of DHCP, by the state in the
    record. -/
def dhcpStatus (n : Netif) : Option RwEvtType :=
  if n.up then
    match n.dhcp with
    | some state => if state = .bound then some .staGotIp else some .staDhcpFailed
    | none => none
  else none

/-- The status callback of an interface, if there is one. -/
def runStatusCallback (s : NetState) (iface : Iface) : NetState :=
  match (s.netif iface).statusCallback with
  | none => s
  | some .wmNetifStatusStaticCallback =>
    if (s.netif iface).up then mhdrSetStationStatus s .staGotIp else s
  | some .wmNetifStatusCallback =>
    let type := dhcpStatus (s.netif iface)
    { s with
      stationStatus := type.getD s.stationStatus
      log := s.log ++ [.callback (s.netif iface).up (s.netif iface).dhcp type] }

/-! ## Calls of lwIP -/

/-- An interface changes. -/
def NetState.modify (s : NetState) (iface : Iface) (f : Netif → Netif) : NetState :=
  { s with netif := Function.update s.netif iface (f (s.netif iface)) }

/-- `netif_set_status_callback`. -/
def netifSetStatusCallback (s : NetState) (iface : Iface) (cb : Option StatusCallback) : NetState :=
  s.modify iface fun n => { n with statusCallback := cb }

/-- `netifapi_netif_set_up`. -/
def netifapiNetifSetUp (s : NetState) (iface : Iface) : NetState :=
  if (s.netif iface).up then s
  else runStatusCallback (s.modify iface fun n => { n with up := true }) iface

/-- `netifapi_netif_set_down`. -/
def netifapiNetifSetDown (s : NetState) (iface : Iface) : NetState :=
  if (s.netif iface).up then
    runStatusCallback (s.modify iface fun n => { n with up := false }) iface
  else s

/-- `netifapi_netif_set_addr`, while no callback is registered. -/
def netifapiNetifSetAddr (s : NetState) (iface : Iface) (ipAddr netmask gw : UInt32) : NetState :=
  s.modify iface fun n => { n with ipAddr, netmask, gw }

section Dhcp

variable (lw : Lwip)

/-- `netifapi_dhcp_start`. -/
def netifapiDhcpStart (s : NetState) (iface : Iface) : NetState :=
  s.modify iface fun n => { n with dhcp := some (lw.dhcpStart n.dhcp), dhcpRuns := true }

/-- `netifapi_dhcp_stop`. -/
def netifapiDhcpStop (s : NetState) (iface : Iface) : NetState :=
  s.modify iface fun n => { n with dhcp := n.dhcp.map lw.dhcpStop, dhcpRuns := false }

/-! ## The calls -/

/-- The settings of an interface. -/
def NetState.setSettings (s : NetState) : Iface → Ipv4Config → NetState
  | .mlan, addr => { s with staIpSettings := addr }
  | .uap, addr => { s with uapIpSettings := addr }

/-- `net_configure_dns`: what it fills in goes to the settings, which `addr` points to. -/
def netConfigureDns (s : NetState) (addr : Ipv4Config) (iface : Iface) : NetState :=
  if addr.addrType = .static then
    let dns1 := if addr.dns1 = 0 then addr.gw else addr.dns1
    let dns2 := if addr.dns2 = 0 then dns1 else addr.dns2
    let s := s.setSettings iface { addr with dns1, dns2 }
    { s with dns := (dns1, dns2) }
  else s

/-- The switch of `net_configure_address`. -/
def netConfigureType (s : NetState) (addr : Ipv4Config) (iface : Iface) : NetState :=
  match addr.addrType with
  | .static =>
    let s := netifapiNetifSetAddr s iface addr.address addr.netmask addr.gw
    let s := netifapiNetifSetUp s iface
    let s := netConfigureDns s addr iface
    if iface = .mlan then
      netifSetStatusCallback s iface (some .wmNetifStatusStaticCallback)
    else s
  | .dhcp =>
    let s := netifapiNetifSetAddr s iface 0 0 0
    let s := netifSetStatusCallback s iface (some .wmNetifStatusCallback)
    let s := netifapiNetifSetUp s iface
    netifapiDhcpStart lw s iface

/-- `net_configure_address`. -/
def netConfigureAddress (s : NetState) (addr : Ipv4Config) (iface : Iface) : NetState :=
  let s := netifapiNetifSetDown s iface
  let s := netifSetStatusCallback s iface none
  let s := netConfigureType lw s addr iface
  if iface = .mlan then s else { s with dhcpdRunning := true }

/-- `sta_ip_down`. -/
def staIpDown (s : NetState) : NetState :=
  if s.staIpStartFlag ≠ 0 then
    let s := { s with staIpStartFlag := 0 }
    let s := netifapiNetifSetDown s .mlan
    let s := netifSetStatusCallback s .mlan none
    netifapiDhcpStop lw s .mlan
  else s

/-- `sta_ip_start`. -/
def staIpStart (s : NetState) : NetState :=
  if s.staIpStartFlag = 0 then
    let s := { s with staIpStartFlag := 1 }
    netConfigureAddress lw s s.staIpSettings .mlan
  else
    -- `net_get_if_addr` leaves 0 while the interface is down
    let address := if (s.netif .mlan).up then (s.netif .mlan).ipAddr else 0
    if s.stationStatus = .staConnected ∧ 0 ≠ address then mhdrSetStationStatus s .staGotIp else s

/-- `uap_ip_down`. -/
def uapIpDown (s : NetState) : NetState :=
  if s.uapIpStartFlag ≠ 0 then
    let s := { s with uapIpStartFlag := 0 }
    let s := netifapiNetifSetDown s .uap
    let s := netifSetStatusCallback s .uap none
    { s with dhcpdRunning := false }
  else s

/-- `uap_ip_start`. -/
def uapIpStart (s : NetState) : NetState :=
  if s.uapIpStartFlag = 0 then
    let s := { s with uapIpStartFlag := 1 }
    netConfigureAddress lw s s.uapIpSettings .uap
  else s

/-- The settings that `ip_address_set` makes of its arguments, where `ip`, `mask`, `gw` and `dns`
    are what `inet_addr` returns for them. -/
def ipv4ConfigOf (dhcp : Int) (ip mask gw dns : UInt32) : Ipv4Config :=
  if dhcp = 1 then ⟨.dhcp, 0, 0, 0, 0, 0⟩
  else
    -- if no valid netmask is set, it is 255.255.255.0
    let netmask := if mask = 0xFFFFFFFF then 0x00FFFFFF else mask
    ⟨.static, ip, gw, netmask, dns, 0⟩

/-- `ip_address_set`. -/
def ipAddressSet (s : NetState) (iface dhcp : Int) (ip mask gw dns : UInt32) : NetState :=
  let addr := ipv4ConfigOf dhcp ip mask gw dns
  if iface = 1 then s.setSettings .mlan addr else s.setSettings .uap addr

/-- The DHCP client of an interface, while one runs: it changes the state of the record and the
    addresses, and may run the status callback. -/
def dhcpExchange (s : NetState) (iface : Iface) (state : DhcpState) (ipAddr netmask gw : UInt32)
    (notify : Bool) : NetState :=
  if (s.netif iface).dhcpRuns then
    let s := s.modify iface fun n => { n with dhcp := some state, ipAddr, netmask, gw }
    if notify then runStatusCallback s iface else s
  else s

/-- The calls, and what happens between them: exchanges of the DHCP clients, and a status of the
    station from elsewhere. -/
inductive NetCall
  | ipAddressSet (iface dhcp : Int) (ip mask gw dns : UInt32)
  | staIpStart
  | staIpDown
  | uapIpStart
  | uapIpDown
  | exchange (iface : Iface) (state : DhcpState) (ipAddr netmask gw : UInt32) (notify : Bool)
  | stationStatus (type : RwEvtType)

/-- One call. -/
def netCall (s : NetState) : NetCall → NetState
  | .ipAddressSet iface dhcp ip mask gw dns => ipAddressSet s iface dhcp ip mask gw dns
  | .staIpStart => staIpStart lw s
  | .staIpDown => staIpDown lw s
  | .uapIpStart => uapIpStart lw s
  | .uapIpDown => uapIpDown s
  | .exchange iface state ipAddr netmask gw notify =>
    dhcpExchange s iface state ipAddr netmask gw notify
  | .stationStatus type => mhdrSetStationStatus s type

end Dhcp

end ArduinoT2.Adapter
