import ArduinoT2.Adapter.Net

/-
  The reports of net.c to the application: the functions that it has registered, and their calls
  by the status callbacks of the interfaces.

  A registered function is a `Bool`: whether there is one. The calls of `Net.lean` are carried out
  on their state, and `reports` grows by what each run of a status callback calls. `netApp_net`:
  without the reports they are those calls.
-/

namespace ArduinoT2.Adapter

/-- `sta_ipup_cb`, `sta_connected_func` and the function that `bk_wlan_get_status_cb` returns. -/
structure AppCallbacks where
  staIpupCb : Bool
  staConnectedFunc : Bool
  statusCb : Bool
  deriving DecidableEq

/-- A call of one of them. -/
inductive AppReport
  | staIpupCb
  | staConnectedFunc
  | statusCb (val : RwEvtType)
  deriving DecidableEq

/-- The state of net.c, what the application has registered, and what has been called of it. -/
structure NetApp where
  net : NetState
  app : AppCallbacks
  reports : List AppReport

/-! ## Status callbacks -/

/-- The end of both status callbacks: an address is there. -/
def ipupReports (app : AppCallbacks) : List AppReport :=
  (if app.staIpupCb then [.staIpupCb] else []) ++
    if app.staConnectedFunc then [.staConnectedFunc] else []

/-- What the status callback of an interface calls. -/
def callbackReports (app : AppCallbacks) (n : Netif) : List AppReport :=
  match n.statusCallback with
  | none => []
  | some .wmNetifStatusStaticCallback => if n.up then ipupReports app else []
  | some .wmNetifStatusCallback =>
    if dhcpStatus n = some .staGotIp then
      (if app.statusCb then [.statusCb .staGotIp] else []) ++ ipupReports app
    else []

/-- The status callback of an interface runs. -/
def reportStatus (a : NetApp) (iface : Iface) : NetApp :=
  { a with
    net := runStatusCallback a.net iface
    reports := a.reports ++ callbackReports a.app (a.net.netif iface) }

/-- A call that runs no status callback. -/
def NetApp.silent (a : NetApp) (f : NetState → NetState) : NetApp := { a with net := f a.net }

/-- `netifapi_netif_set_up`. -/
def reportSetUp (a : NetApp) (iface : Iface) : NetApp :=
  if (a.net.netif iface).up then a
  else reportStatus (a.silent fun s => s.modify iface fun n => { n with up := true }) iface

/-- `netifapi_netif_set_down`. -/
def reportSetDown (a : NetApp) (iface : Iface) : NetApp :=
  if (a.net.netif iface).up then
    reportStatus (a.silent fun s => s.modify iface fun n => { n with up := false }) iface
  else a

/-! ## The calls -/

section Dhcp

variable (lw : Lwip)

/-- The switch of `net_configure_address`. -/
def reportConfigureType (a : NetApp) (addr : Ipv4Config) (iface : Iface) : NetApp :=
  match addr.addrType with
  | .static =>
    let a := a.silent fun s => netifapiNetifSetAddr s iface addr.address addr.netmask addr.gw
    let a := reportSetUp a iface
    let a := a.silent fun s => netConfigureDns s addr iface
    if iface = .mlan then
      a.silent fun s => netifSetStatusCallback s iface (some .wmNetifStatusStaticCallback)
    else a
  | .dhcp =>
    let a := a.silent fun s => netifapiNetifSetAddr s iface 0 0 0
    let a := a.silent fun s => netifSetStatusCallback s iface (some .wmNetifStatusCallback)
    let a := reportSetUp a iface
    a.silent fun s => netifapiDhcpStart lw s iface

/-- `net_configure_address`. -/
def reportConfigureAddress (a : NetApp) (addr : Ipv4Config) (iface : Iface) : NetApp :=
  let a := reportSetDown a iface
  let a := a.silent fun s => netifSetStatusCallback s iface none
  let a := reportConfigureType lw a addr iface
  if iface = .mlan then a else a.silent fun s => { s with dhcpdRunning := true }

/-- `sta_ip_start`. -/
def reportStaIpStart (a : NetApp) : NetApp :=
  if a.net.staIpStartFlag = 0 then
    let a := a.silent fun s => { s with staIpStartFlag := 1 }
    reportConfigureAddress lw a a.net.staIpSettings .mlan
  else a.silent (staIpStart lw)

/-- `sta_ip_down`. -/
def reportStaIpDown (a : NetApp) : NetApp :=
  if a.net.staIpStartFlag ≠ 0 then
    let a := a.silent fun s => { s with staIpStartFlag := 0 }
    let a := reportSetDown a .mlan
    let a := a.silent fun s => netifSetStatusCallback s .mlan none
    a.silent fun s => netifapiDhcpStop lw s .mlan
  else a

/-- `uap_ip_start`. -/
def reportUapIpStart (a : NetApp) : NetApp :=
  if a.net.uapIpStartFlag = 0 then
    let a := a.silent fun s => { s with uapIpStartFlag := 1 }
    reportConfigureAddress lw a a.net.uapIpSettings .uap
  else a

/-- `uap_ip_down`. -/
def reportUapIpDown (a : NetApp) : NetApp :=
  if a.net.uapIpStartFlag ≠ 0 then
    let a := a.silent fun s => { s with uapIpStartFlag := 0 }
    let a := reportSetDown a .uap
    let a := a.silent fun s => netifSetStatusCallback s .uap none
    a.silent fun s => { s with dhcpdRunning := false }
  else a

/-- An exchange of the DHCP client of an interface. -/
def reportExchange (a : NetApp) (iface : Iface) (state : DhcpState) (ipAddr netmask gw : UInt32)
    (notify : Bool) : NetApp :=
  if (a.net.netif iface).dhcpRuns then
    let a := a.silent fun s => s.modify iface fun n =>
      { n with dhcp := some state, ipAddr, netmask, gw }
    if notify then reportStatus a iface else a
  else a

/-- One call of net.c, with its reports. -/
def netReport (a : NetApp) : NetCall → NetApp
  | .staIpStart => reportStaIpStart lw a
  | .staIpDown => reportStaIpDown lw a
  | .uapIpStart => reportUapIpStart lw a
  | .uapIpDown => reportUapIpDown a
  | .exchange iface state ipAddr netmask gw notify =>
    reportExchange a iface state ipAddr netmask gw notify
  | .ipAddressSet iface dhcp ip mask gw dns =>
    a.silent fun s => ipAddressSet s iface dhcp ip mask gw dns
  | .stationStatus type => a.silent fun s => mhdrSetStationStatus s type

end Dhcp

/-! ## Without the reports -/

@[simp] theorem silent_net (a : NetApp) (f : NetState → NetState) : (a.silent f).net = f a.net :=
  rfl

@[simp] theorem reportStatus_net (a : NetApp) (iface : Iface) :
    (reportStatus a iface).net = runStatusCallback a.net iface := rfl

@[simp] theorem reportSetUp_net (a : NetApp) (iface : Iface) :
    (reportSetUp a iface).net = netifapiNetifSetUp a.net iface := by
  unfold reportSetUp netifapiNetifSetUp
  split
  · rfl
  · rfl

@[simp] theorem reportSetDown_net (a : NetApp) (iface : Iface) :
    (reportSetDown a iface).net = netifapiNetifSetDown a.net iface := by
  unfold reportSetDown netifapiNetifSetDown
  split
  · rfl
  · rfl

@[simp] theorem reportConfigureType_net (lw : Lwip) (a : NetApp) (addr : Ipv4Config)
    (iface : Iface) :
    (reportConfigureType lw a addr iface).net = netConfigureType lw a.net addr iface := by
  unfold reportConfigureType netConfigureType
  cases addr.addrType with
  | static =>
    simp only
    split
    · simp
    · simp
  | dhcp => simp

@[simp] theorem reportConfigureAddress_net (lw : Lwip) (a : NetApp) (addr : Ipv4Config)
    (iface : Iface) :
    (reportConfigureAddress lw a addr iface).net = netConfigureAddress lw a.net addr iface := by
  unfold reportConfigureAddress netConfigureAddress
  simp only
  split
  · simp
  · simp

/-- Without its reports, a call is the call of net.c. -/
theorem netApp_net (lw : Lwip) (a : NetApp) (c : NetCall) :
    (netReport lw a c).net = netCall lw a.net c := by
  cases c with
  | staIpStart =>
    show (reportStaIpStart lw a).net = staIpStart lw a.net
    unfold reportStaIpStart
    split
    · rename_i hflag
      rw [reportConfigureAddress_net, staIpStart, if_pos hflag]
      rfl
    · rfl
  | staIpDown =>
    show (reportStaIpDown lw a).net = staIpDown lw a.net
    unfold reportStaIpDown staIpDown
    split
    · simp
    · rfl
  | uapIpStart =>
    show (reportUapIpStart lw a).net = uapIpStart lw a.net
    unfold reportUapIpStart uapIpStart
    split
    · simp
    · rfl
  | uapIpDown =>
    show (reportUapIpDown a).net = uapIpDown a.net
    unfold reportUapIpDown uapIpDown
    split
    · simp
    · rfl
  | exchange iface state ipAddr netmask gw notify =>
    show (reportExchange a iface state ipAddr netmask gw notify).net = dhcpExchange ..
    unfold reportExchange dhcpExchange
    split
    · simp only
      split
      · rfl
      · rfl
    · rfl
  | ipAddressSet iface dhcp ip mask gw dns => rfl
  | stationStatus type => rfl

end ArduinoT2.Adapter
