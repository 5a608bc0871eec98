import ArduinoT2.Adapter.TklWifiAp

/-
  `tkl_wifi_all_ap_scan` and `tkl_wifi_scan_ap` (tkl_wifi.c) as a whole, over the outcomes of what
  they call: every exit, with the buffers that a call has been given and those that it has freed.

  `apList`, a local of both functions, may be read without having been written; `ScanHeap.uninit`
  says that this has happened.
-/

namespace ArduinoT2.Adapter

/-! ## Outcomes -/

/-- `tkl_system_malloc`: which requests it meets. The heap (heap_6.c) has at most 256 KiB. -/
structure Malloc where
  meets : Nat → Bool
  le : ∀ size, meets size = true → size ≤ 262144

/-- What `wlan_sta_scan_result` comes to: the request does not get to the supplicant, there is no
    memory for the list, or the list is filled in. -/
inductive ResultOutcome
  | untouched
  | noMemory
  | found (apList : List ApEntry)

/-- What the calls return: `tkl_semaphore_create_init`, the start of the scan,
    `tkl_semaphore_wait`. -/
structure ScanOutcomes where
  semRet : OperateRet
  startRet : Int
  waitRet : OperateRet
  result : ResultOutcome
  malloc : Malloc

/-- The parameters that are not NULL, and whether `scanHandle` is not NULL. -/
structure ScanArgs where
  apAry : Bool
  num : Bool
  busy : Bool

/-! ## Buffers -/

/-- The buffers that have been allocated or received, those that have been freed, and whether a
    pointer has been read that nothing had written. -/
structure ScanHeap where
  owned : List ScanBlock
  freed : List ScanBlock
  uninit : Bool

def ScanHeap.empty : ScanHeap := ⟨[], [], false⟩

def ScanHeap.gain (heap : ScanHeap) (b : ScanBlock) : ScanHeap :=
  { heap with owned := heap.owned ++ [b] }

def ScanHeap.free (heap : ScanHeap) (b : ScanBlock) : ScanHeap :=
  { heap with freed := heap.freed ++ [b] }

/-- `ScanResult_adv`. Unless it is `written`, its fields mean nothing. `apList` is NULL or the
    list. -/
structure ScanResultAdv where
  written : Bool
  apNum : Int
  apList : Option (List ApEntry)

/-- The local before and behind the `memset` of `tkl_wifi_scan_ap`. -/
def ScanResultAdv.unset : ScanResultAdv := ⟨false, 0, none⟩
def ScanResultAdv.zero : ScanResultAdv := ⟨true, 0, none⟩

/-- `wlan_sta_scan_result`, down to `wpa_supplicant_ctrl_iface_scan_results`. -/
def wlanStaScanResult (charSigned : Bool) (result : ResultOutcome) (results : ScanResultAdv)
    (heap : ScanHeap) : Int × ScanResultAdv × ScanHeap :=
  match result with
  | .untouched => (-1, results, heap)
  | .noMemory => (-1, ⟨true, 0, none⟩, heap)
  | .found [] => (0, ⟨true, 0, none⟩, heap)
  | .found apList => (0, ⟨true, apNum charSigned apList.length, some apList⟩, heap.gain .apList)

/-- `if (apList.ApList != NULL) tkl_system_free(apList.ApList);` -/
def freeApList (apList : ScanResultAdv) (heap : ScanHeap) : ScanHeap :=
  if !apList.written then { heap with uninit := true }
  else if apList.apList.isSome then heap.free .apList
  else heap

/-! ## The calls -/

/-- What a call returns, what it stores in `*ap_ary` and `*num`, and the buffers. -/
structure ScanCall where
  ret : OperateRet
  apAry : Option (List ApIf)
  num : Option Nat
  heap : ScanHeap

/-- A return before the results. -/
def scanReturn (ret : OperateRet) : ScanCall := ⟨ret, none, none, .empty⟩

/-- From the semaphore to its release; the error is returned at once. -/
def scanWait (o : ScanOutcomes) : OperateRet :=
  if o.semRet ≠ oprtOk then o.semRet
  else if o.startRet = 0 then o.waitRet
  else oprtComError

/-- `SCAN_ERR`, where `array` is whether that pointer is not NULL. -/
def scanErrExit (apList : ScanResultAdv) (array : Bool) (heap : ScanHeap) : ScanCall :=
  let heap := freeApList apList heap
  let heap := if array then heap.free .array else heap
  ⟨oprtOsAdapterComError, none, none, heap⟩

/-- `SCAN_MAX_AP`. -/
def scanMaxAp : Int := 64

/-- `SIZEOF(AP_IF_S) * n`, a `size_t`. -/
def apIfBytes (n : Int) : Nat := (45 * n % 4294967296).toNat

/-- The body of the loop of `tkl_wifi_all_ap_scan`, on an element that is all zero. -/
def scanItem (charSigned : Bool) (e : ApEntry) : ApIf :=
  let ssidLen := if e.ssid.length > wifiSsidLen then wifiSsidLen else e.ssid.length
  { channel := e.channel
    rssi := (e.apPower charSigned).bmod 256
    bssid := e.bssid
    ssid := copySsid (List.replicate 33 0) e.ssid ssidLen
    sLen := ssidLen
    security := e.security }

/-- `tkl_wifi_all_ap_scan`. -/
def tklWifiAllApScan (charSigned : Bool) (args : ScanArgs) (o : ScanOutcomes) : ScanCall :=
  if args.apAry = false ∨ args.num = false ∨ args.busy = true then
    scanReturn oprtOsAdapterInvalidParm
  else if scanWait o ≠ oprtOk then scanReturn (scanWait o)
  else
    let (ret, apList, heap) := wlanStaScanResult charSigned o.result .unset .empty
    if ret ≠ 0 ∨ apList.apNum = 0 then scanErrExit apList false heap
    else
      let scanCnt := if apList.apNum > scanMaxAp then scanMaxAp else apList.apNum
      if scanCnt = 0 then scanErrExit apList false heap
      else if o.malloc.meets (apIfBytes scanCnt) = false then scanErrExit apList false heap
      else
        let heap := heap.gain .array
        let array := ((apList.apList.getD []).take scanCnt.toNat).map (scanItem charSigned)
        ⟨oprtOk, some array, some (scanCnt % 256).toNat, freeApList apList heap⟩

/-- `tkl_wifi_scan_ap`. -/
def tklWifiScanAp (charSigned : Bool) (ssid : Option (List UInt8)) (args : ScanArgs)
    (o : ScanOutcomes) : ScanCall :=
  match ssid with
  | none => tklWifiAllApScan charSigned args o
  | some ssid =>
    if args.apAry = false ∨ args.busy = true then scanReturn oprtOsAdapterInvalidParm
    else if scanWait o ≠ oprtOk then scanReturn (scanWait o)
    else
      let (ret, apList, heap) := wlanStaScanResult charSigned o.result .zero .empty
      if ret ≠ 0 ∨ apList.apNum = 0 then scanErrExit apList false heap
      else if o.malloc.meets (apIfBytes 1) = false then scanErrExit apList false heap
      else
        let heap := heap.gain .array
        let entries := (apList.apList.getD []).take apList.apNum.toNat
        let (array, j) := entries.foldl (scanPick charSigned ssid) (.start, 0)
        if j = 0 then scanErrExit apList true heap
        else ⟨oprtOk, some [array], none, freeApList apList heap⟩

end ArduinoT2.Adapter
