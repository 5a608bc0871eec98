import ArduinoT2.Lib.ByteMem
import Mathlib.Data.FinEnum

/-
  The records of wlan_ui_pub.h, and `bk_wlan_ap_init_adv` (vendor/func/wlan_ui/wlan_ui.c), which
  decodes one of them into the parameters of the access point (param_config.h).

  A record is its bytes by offset, since the C code measures and copies strings across the bounds
  of fields; the fields are those that are used here. The MAC address, the default channel and
  `inet_aton` are parameters.
-/

namespace ArduinoT2.Vendor

open ByteMem

/-! ## Records -/

/-- A field of a record: its offset and its size. -/
structure Field where
  offset : Nat
  size : Nat
  deriving DecidableEq

/-- The offset is one of the field. -/
def Field.Contains (f : Field) (i : Nat) : Prop := f.offset ≤ i ∧ i < f.offset + f.size

instance (f : Field) (i : Nat) : Decidable (f.Contains i) := inferInstanceAs (Decidable (_ ∧ _))

/-- `DHCP_CLIENT` and `DHCP_SERVER`. -/
def dhcpClient : UInt8 := 1
def dhcpServer : UInt8 := 2

/-- `STATION` of `wlanInterfaceTypedef`. -/
def station : UInt8 := 1

/-- `wlan_sec_type_t`, one byte. -/
def securityTypeNone : UInt8 := 0
def securityTypeWep : UInt8 := 1
def securityTypeWpa2Tkip : UInt8 := 4
def securityTypeWpa2Aes : UInt8 := 5
def securityTypeWpa2Mixed : UInt8 := 6

/-! ### `network_InitTypeDef_st` -/

namespace NetworkInit

@[simp] def wifiMode : Field := ⟨0, 1⟩
@[simp] def wifiSsid : Field := ⟨1, 33⟩
@[simp] def wifiKey : Field := ⟨34, 64⟩
@[simp] def localIpAddr : Field := ⟨98, 16⟩
@[simp] def dhcpMode : Field := ⟨162, 1⟩

end NetworkInit

/-! ### `network_InitTypeDef_ap_st` -/

namespace NetworkInitAp

@[simp] def wifiSsid : Field := ⟨0, 32⟩
@[simp] def wifiKey : Field := ⟨32, 64⟩
@[simp] def channel : Field := ⟨96, 1⟩
@[simp] def security : Field := ⟨97, 1⟩
@[simp] def ssidHidden : Field := ⟨98, 1⟩
@[simp] def localIpAddr : Field := ⟨100, 16⟩
@[simp] def netMask : Field := ⟨116, 16⟩
@[simp] def gatewayIpAddr : Field := ⟨132, 16⟩
@[simp] def dnsServerIpAddr : Field := ⟨148, 16⟩
@[simp] def dhcpMode : Field := ⟨164, 1⟩

/-- The size of the record. -/
def apSize : Nat := 204

/-- `os_strlen` of a string that starts in the field. -/
def osStrlen (m : Mem) (f : Field) : Nat := strlen m f.offset (apSize - f.offset)

end NetworkInitAp

/-! ## `bk_wlan_ap_init_adv` -/

/-- `SSID_MAX_LEN`. -/
def ssidMaxLen : Nat := 32

/-- `CONFIG_ROLE_AP`. -/
def configRoleAp : UInt8 := 1

/-- `ap_param_t`. `key` has the 65 bytes of the key and, behind them, `key_len`. -/
structure ApParam where
  bssid : List UInt8
  ssidLength : UInt8
  ssidArray : Mem
  chann : UInt8
  cipherSuite : UInt8
  key : Mem

/-- Where `key_len` stands behind `key`. -/
abbrev ApParam.keyLenAt : Nat := 65

/-- `key_len`. -/
def ApParam.keyLen (p : ApParam) : UInt8 := p.key keyLenAt

/-- The SSID: `ssid.length` bytes of `ssid.array`. -/
def ApParam.ssid (p : ApParam) : List UInt8 := load p.ssidArray 0 p.ssidLength.toNat

/-- The password: `key_len` bytes of `key`. -/
def ApParam.passwd (p : ApParam) : List UInt8 := load p.key 0 p.keyLen.toNat

/-- `general_param_t`. -/
structure GeneralParam where
  role : UInt8
  dhcpEnable : UInt8
  ipAddr : UInt32
  ipMask : UInt32
  ipGw : UInt32

/-- What `os_zalloc` returns. -/
def ApParam.zero : ApParam := ⟨List.replicate 6 0, 0, fun _ => 0, 0, 0, fun _ => 0⟩
def GeneralParam.zero : GeneralParam := ⟨0, 0, 0, 0, 0⟩

/-- `g_ap_param_ptr` and `g_wlan_general_param`. -/
structure WlanParams where
  apParam : Option ApParam
  generalParam : Option GeneralParam

/-- What the function reads from elsewhere: the MAC address of the role, the default channel, and
    `inet_aton`, which leaves its result alone when the text is no address. -/
structure WlanEnv where
  macAddress : List UInt8
  defaultChannel : UInt8
  inetAton : List UInt8 → Option UInt32

/-- `inet_aton(field, &old)`. -/
def WlanEnv.aton (env : WlanEnv) (m : Mem) (f : Field) (old : UInt32) : UInt32 :=
  (env.inetAton (load m f.offset (NetworkInitAp.osStrlen m f))).getD old

/-- `bk_wlan_ap_init_adv`, up to `sa_ap_init`. -/
def bkWlanApInitAdv (env : WlanEnv) (s : WlanParams) (inNetworkInitParaAp : Option Mem) :
    ApParam × GeneralParam :=
  let ap := s.apParam.getD .zero
  let ap := { ap with
    bssid := if ∀ b ∈ ap.bssid, b = 0 then env.macAddress else ap.bssid }
  let general := { s.generalParam.getD .zero with role := configRoleAp }
  match inNetworkInitParaAp with
  | none => (ap, general)
  | some m =>
    open NetworkInitAp in
    let chann :=
      if m channel.offset = 0 then env.defaultChannel else m channel.offset
    let ssidLength := UInt8.ofNat (min ssidMaxLen (osStrlen m wifiSsid))
    let ssidArray := store ap.ssidArray 0 (load m wifiSsid.offset ssidLength.toNat)
    -- `key_len` is stored first, and the copy of the key may reach it
    let keyLen := UInt8.ofNat (osStrlen m wifiKey)
    let key := store ap.key ApParam.keyLenAt [keyLen]
    let key := store key 0 (load m wifiKey.offset keyLen.toNat)
    let ap := { ap with
      chann, ssidLength, ssidArray, key
      cipherSuite := m security.offset }
    let general := { general with
      dhcpEnable := if m dhcpMode.offset = dhcpServer then 1 else 0
      ipAddr := env.aton m localIpAddr general.ipAddr
      ipMask := env.aton m netMask general.ipMask
      ipGw := env.aton m gatewayIpAddr general.ipGw }
    (ap, general)

end ArduinoT2.Vendor
