import ArduinoT2.Adapter.ErrorCode
import Mathlib.Data.List.Basic

/-
  Access points in tkl_wifi.c: the signal strength of the one that the station is connected to
  (`tkl_wifi_station_get_conn_ap_rssi`), and what `tkl_wifi_scan_ap` makes of the results of a scan
  for one SSID.

  Values of a narrow type are integers, and `Int.bmod` cuts what is stored to it. `charSigned` is
  whether plain `char` is signed. The steps of a scan up to its results are those of
  `TklWifiScan.lean`.
-/

namespace ArduinoT2.Adapter

/-! ## `tkl_wifi_station_get_conn_ap_rssi` -/

/-- A call of `bk_wlan_get_link_status`: what it returns, and `wifi_strength`. -/
structure LinkCall where
  ret : OperateRet
  wifiStrength : Int
  deriving DecidableEq

/-- The locals of the loop, and which elements of `rssi` it has read. -/
structure RssiLoop where
  ret : OperateRet
  tmpRssi : Int
  sumRssi : Int
  maxRssi : Int
  minRssi : Int
  errorCnt : Nat
  reads : List Nat
  deriving DecidableEq

/-- The locals before the loop. -/
def RssiLoop.start : RssiLoop := ⟨oprtOk, 0, 0, -128, 127, 0, []⟩

/-- The body of the loop. A call that fails leaves `tmp_rssi`, which is added all the same. -/
def rssiRound (calls : Nat → LinkCall) (rssi : Nat → Int) (r : RssiLoop) (i : Nat) : RssiLoop :=
  let sta := calls i
  let r := { r with ret := sta.ret }
  let r :=
    if sta.ret = oprtOk then
      let tmpRssi := sta.wifiStrength.bmod 65536
      { r with
        tmpRssi
        maxRssi := if tmpRssi > r.maxRssi then tmpRssi.bmod 256 else r.maxRssi
        minRssi := if rssi i < r.minRssi then tmpRssi.bmod 256 else r.minRssi
        reads := r.reads ++ [i] }
    else { r with errorCnt := r.errorCnt + 1 }
  { r with sumRssi := (r.sumRssi + r.tmpRssi).bmod 65536 }

/-- What a call returns, what it stores in `*rssi`, and which elements of `rssi` it has read. -/
structure RssiResult where
  ret : OperateRet
  stored : Option Int
  reads : List Nat
  deriving DecidableEq

/-- `tkl_wifi_station_get_conn_ap_rssi`, where `rssi i` is what `rssi[i]` holds. -/
def tklWifiStationGetConnApRssi (calls : Nat → LinkCall) (rssi : Nat → Int) : RssiResult :=
  let r := (List.range 5).foldl (rssiRound calls rssi) .start
  if r.errorCnt > 2 then ⟨oprtComError, none, r.reads⟩
  else
    let mean := (r.sumRssi - r.minRssi - r.maxRssi).tdiv (3 - r.errorCnt)
    ⟨r.ret, some (mean.bmod 256), r.reads⟩

/-! ## The results of a scan -/

/-- `WIFI_SSID_LEN`. -/
def wifiSsidLen : Nat := 32

/-- An entry of `ScanResult_adv`. The SSID is a string, and `power` is in dBm. -/
structure ApEntry where
  ssid : List UInt8
  power : Int
  bssid : List UInt8
  channel : UInt8
  security : UInt8
  ssid_len : ssid.length ≤ 32
  ssid_string : 0 ∉ ssid
  power_ge : -127 ≤ power
  power_le : power ≤ 0

/-- A value that is stored in a `char`. -/
def plainChar (charSigned : Bool) (v : Int) : Int := if charSigned then v.bmod 256 else v % 256

/-- `ApPower`. -/
def ApEntry.apPower (charSigned : Bool) (e : ApEntry) : Int := plainChar charSigned e.power

/-- `ApNum` of a result with so many entries. -/
def apNum (charSigned : Bool) (entries : Nat) : Int := plainChar charSigned entries

/-- `AP_IF_S`, as far as a scan fills it in. -/
structure ApIf where
  channel : UInt8
  rssi : Int
  bssid : List UInt8
  ssid : List UInt8
  sLen : Nat
  security : UInt8
  deriving DecidableEq

/-- The element before the loop: all zero, but for `rssi`. -/
def ApIf.start : ApIf := ⟨0, -100, List.replicate 6 0, List.replicate 33 0, 0, 0⟩

/-- `memset` and `os_strncpy` of `ssidLen` bytes of `src` to the front of an array. -/
def copySsid (dst src : List UInt8) (ssidLen : Nat) : List UInt8 :=
  let dst := List.replicate ssidLen 0 ++ dst.drop ssidLen
  (src.take ssidLen ++ List.replicate (ssidLen - src.length) 0) ++ dst.drop ssidLen

/-- The body of the loop over the entries, with the element and the count `j`. -/
def scanPick (charSigned : Bool) (ssid : List UInt8) (r : ApIf × Nat) (e : ApEntry) : ApIf × Nat :=
  let (array, j) := r
  if e.ssid ≠ ssid then r
  else if e.apPower charSigned < array.rssi then r
  else
    let ssidLen := if e.ssid.length > wifiSsidLen then wifiSsidLen else e.ssid.length
    ({ channel := e.channel
       rssi := (e.apPower charSigned).bmod 256
       bssid := e.bssid
       ssid := copySsid array.ssid e.ssid ssidLen
       sLen := ssidLen
       security := e.security }, j + 1)

/-- The blocks of a scan: the list of `wlan_sta_scan_result`, and the element. -/
inductive ScanBlock
  | apList | array
  deriving DecidableEq

/-- What a call returns, what it stores in `*ap_ary`, `*num` behind it, and the blocks that are
    not freed. -/
structure ScanApResult where
  ret : OperateRet
  apAry : Option ApIf
  num : Nat
  live : List ScanBlock

/-- `SCAN_ERR`. -/
def scanErr (num : Nat) (live : List ScanBlock) : ScanApResult :=
  ⟨oprtOsAdapterComError, none, num, (live.erase .apList).erase .array⟩

/-- `tkl_wifi_scan_ap` for an SSID, from the results of the scan on. `allocated` is whether there
    is memory for the element, and `*num` holds `num`. -/
def tklWifiScanApResults (charSigned : Bool) (apList : List ApEntry) (allocated : Bool)
    (ssid : List UInt8) (num : Nat) : ScanApResult :=
  let live : List ScanBlock := if apList.length = 0 then [] else [.apList]
  if apNum charSigned apList.length = 0 then scanErr num live
  else if !allocated then scanErr num live
  else
    let live := live ++ [.array]
    let entries := apList.take (apNum charSigned apList.length).toNat
    let (array, j) := entries.foldl (scanPick charSigned ssid) (.start, 0)
    if j = 0 then scanErr num live
    else ⟨oprtOk, some array, num, live.erase .apList⟩

end ArduinoT2.Adapter
