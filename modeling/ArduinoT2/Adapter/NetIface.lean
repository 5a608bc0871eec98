import ArduinoT2.Adapter.Net

/-
  The interfaces of net.c and their `struct netif`: adding, removing, and the lookup by address.

  `g_mlan` and `g_uap` start with a NULL `netif`; only `net_wlan_add_netif` sets it, to an entry
  of `xnetif`, and nothing sets it back. What the VIF manager finds for a MAC address and what
  lwIP leaves in a `struct netif` is not part of the sources and comes with the call.
-/

namespace ArduinoT2.Adapter

/-- The types of a VIF. -/
inductive VifType
  | vifSta | vifIbss | vifAp | vifMeshPoint | vifUnknown
  deriving DecidableEq

/-- The argument of a call, and what `rwm_mgmt_vif_mac2idx` and `rwm_mgmt_vif_idx2ptr` return for
    it: the index, and the type of the entry unless that is NULL. -/
structure VifLookup where
  mac : Option (List UInt8)
  vifIdx : UInt8
  vifEntry : Option VifType

/-- The checks at the start of `net_wlan_add_netif` and `net_wlan_remove_netif`: the entry, if
    the call goes on. -/
def VifLookup.entry (l : VifLookup) : Option (UInt8 × VifType) :=
  match l.mac with
  | none => none
  | some b =>
    if (b.take 6).all (· = 0) then none
    else if l.vifIdx = 0xff then none
    else l.vifEntry.map fun type => (l.vifIdx, type)

/-- `struct netif`, in `xnetif`: its addresses, whether it is in `netif_list`, and the VIF that
    `state` points at. -/
structure XNetif where
  ipAddr : UInt32
  netmask : UInt32
  isAdded : Bool
  state : Option UInt8

/-- `struct interface`: `netif` is an index of `xnetif`, or NULL. -/
structure Interface where
  netif : Option Nat
  ipaddr : UInt32

/-- `g_mlan` and `g_uap`, `xnetif`, and the field `priv` of the VIF entries. -/
structure IfaceState where
  iface : Iface → Interface
  xnetif : Nat → XNetif
  priv : UInt8 → Option Nat

/-- The variables at the start: all 0. -/
def IfaceState.static : IfaceState where
  iface _ := ⟨none, 0⟩
  xnetif _ := ⟨0, 0, false, none⟩
  priv _ := none

/-- The interface that `net_wlan_add_netif` picks for a VIF, and its entry of `xnetif`. -/
def VifType.role : VifType → Option (Iface × Nat)
  | .vifAp => some (.uap, 1)
  | .vifSta => some (.mlan, 0)
  | _ => none

/-- `netifapi_netif_add` with `addr` for the address, the mask and the gateway. When it `fails`,
    lwIP leaves an address and a mask of its own. -/
def netifapiNetifAdd (n : XNetif) (addr : UInt32) (fails : Option (UInt32 × UInt32)) : XNetif :=
  match fails with
  | none => { n with ipAddr := addr, netmask := addr, isAdded := true }
  | some left => { n with ipAddr := left.1, netmask := left.2 }

/-- `net_wlan_add_netif`. -/
def netWlanAddNetif (s : IfaceState) (l : VifLookup) (fails : Option (UInt32 × UInt32)) :
    IfaceState :=
  match l.entry with
  | none => s
  | some (vifIdx, type) =>
    match type.role with
    | none => s
    | some (wlanIf, x) =>
      let n := s.xnetif x
      let n := if n.isAdded then n else netifapiNetifAdd n (s.iface wlanIf).ipaddr fails
      { iface := Function.update s.iface wlanIf ⟨some x, 0⟩
        xnetif := Function.update s.xnetif x { n with state := some vifIdx }
        priv := Function.update s.priv vifIdx (some x) }

/-- `net_wlan_remove_netif`. `netifapi_netif_remove` leaves an address and a mask; when it `fails`
    the interface stays added. -/
def netWlanRemoveNetif (s : IfaceState) (l : VifLookup) (fails : Bool) (left : UInt32 × UInt32) :
    IfaceState :=
  match l.entry with
  | none => s
  | some (vifIdx, _) =>
    match s.priv vifIdx with
    | none => s
    | some x =>
      let n := s.xnetif x
      let n := if fails then { n with ipAddr := left.1, netmask := left.2 }
        else { n with ipAddr := left.1, netmask := left.2, isAdded := false, state := none }
      { s with xnetif := Function.update s.xnetif x n }

/-- The address and the mask of an interface, by `net_get_if_ip_addr` and `net_get_if_ip_mask`;
    `none` is the dereference of NULL. -/
def netGetIfIp (s : IfaceState) (handle : Iface) : Option (UInt32 × UInt32) :=
  match (s.iface handle).netif with
  | none => none
  | some x => some ((s.xnetif x).ipAddr, (s.xnetif x).netmask)

/-- `check_iface_mask`. -/
def checkIfaceMask (s : IfaceState) (handle : Iface) (ipaddr : UInt32) : Option Int :=
  match netGetIfIp s handle with
  | none => none
  | some (interfaceIp, interfaceMask) =>
    if interfaceIp > 0 then
      if interfaceIp &&& interfaceMask = ipaddr &&& interfaceMask then some 0 else some (-1)
    else some (-1)

/-- `net_ip_to_interface`: the handle, or NULL; the outer `none` is the dereference of NULL. -/
def netIpToInterface (s : IfaceState) (ipaddr : UInt32) : Option (Option Iface) :=
  match checkIfaceMask s .mlan ipaddr with
  | none => none
  | some ret =>
    if ret = 0 then some (some .mlan)
    else
      match checkIfaceMask s .uap ipaddr with
      | none => none
      | some ret => if ret = 0 then some (some .uap) else some none

end ArduinoT2.Adapter
