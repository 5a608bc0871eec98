import ArduinoT2.Adapter.ErrorCode
import ArduinoT2.Vendor.WlanUi

/-
  Credentials in tkl_wifi.c: the records that `tkl_wifi_start_ap` and `tkl_wifi_station_connect`
  hand to the SDK.
-/

namespace ArduinoT2.Adapter

open ByteMem Vendor

/-- An SSID: 1 to 32 bytes, none of them zero. -/
structure Ssid where
  bytes : List UInt8
  pos : 0 < bytes.length
  le : bytes.length ≤ 32
  no_zero : 0 ∉ bytes

/-- A password, or a hexadecimal key: up to 64 bytes (`WIFI_PASSWD_LEN`), none of them zero. -/
structure Passwd where
  bytes : List UInt8
  le : bytes.length ≤ 64
  no_zero : 0 ∉ bytes

/-- A text of `NW_IP_S`, a string in 16 bytes. -/
structure IpText where
  bytes : List UInt8
  lt : bytes.length < 16
  no_zero : 0 ∉ bytes

/-- `NW_IP_S`. -/
structure NwIp where
  ip : IpText
  mask : IpText
  gw : IpText

/-- `WF_AP_AUTH_MODE_E`. -/
inductive WfApAuthMode
  | open | wep | wpaPsk | wpa2Psk | wpaWpa2Psk | wpaWpa3Sae | unknown
  deriving DecidableEq

/-- `WF_AP_CFG_IF_S`, as far as it is read: the SSID is `s_len` bytes of `ssid`, the password
    `p_len` bytes of `passwd`. -/
structure WfApCfgIf where
  ssid : Ssid
  passwd : Passwd
  chan : UInt8
  md : WfApAuthMode
  ip : NwIp

/-- The `switch` over `md`; the other modes are refused. -/
def WfApAuthMode.security : WfApAuthMode → Option UInt8
  | .open => some securityTypeNone
  | .wep => some securityTypeWep
  | .wpaPsk => some securityTypeWpa2Tkip
  | .wpa2Psk => some securityTypeWpa2Aes
  | .wpaWpa2Psk => some securityTypeWpa2Mixed
  | .wpaWpa3Sae | .unknown => none

/-- `os_strcpy` of a string into the record. -/
def osStrcpy (m : Mem) (f : Field) (s : List UInt8) : Mem := store m f.offset (s ++ [0])

/-- `tkl_wifi_start_ap`: what it returns without a call of `bk_wlan_start_ap_adv`, or the record
    that it calls it with. -/
def tklWifiStartAp (cfg : WfApCfgIf) : Except OperateRet Mem :=
  open NetworkInitAp in
  match cfg.md.security with
  | none => .error oprtInvalidParm
  | some sec =>
    let m : Mem := fun _ => 0
    let m := store m security.offset [sec]
    let m := store m channel.offset [cfg.chan]
    let m := store m dhcpMode.offset [dhcpServer]
    let m := store m wifiSsid.offset cfg.ssid.bytes
    let m := store m wifiKey.offset cfg.passwd.bytes
    let m := osStrcpy m localIpAddr cfg.ip.ip.bytes
    let m := osStrcpy m netMask cfg.ip.mask.bytes
    let m := osStrcpy m gatewayIpAddr cfg.ip.gw.bytes
    let m := osStrcpy m dnsServerIpAddr cfg.ip.gw.bytes
    .ok m

/-- A record that is filled in, and the stretches that strings were copied to. -/
structure Filling where
  bytes : Mem
  copied : List Field

/-- `os_strcpy` of a string into the record, with the stretch that it writes. -/
def Filling.osStrcpy (r : Filling) (f : Field) (s : List UInt8) : Filling :=
  ⟨Adapter.osStrcpy r.bytes f s, r.copied ++ [⟨f.offset, s.length + 1⟩]⟩

/-- `tkl_wifi_station_connect`: the record that it calls `bk_wlan_start` with. -/
def tklWifiStationConnect (ssid passwd : List UInt8) : Filling :=
  open NetworkInit in
  let r : Filling := ⟨fun _ => 0, []⟩
  let r := r.osStrcpy wifiSsid ssid
  let r := r.osStrcpy wifiKey passwd
  let r := { r with bytes := store r.bytes wifiMode.offset [station] }
  { r with bytes := store r.bytes dhcpMode.offset [dhcpClient] }

end ArduinoT2.Adapter
