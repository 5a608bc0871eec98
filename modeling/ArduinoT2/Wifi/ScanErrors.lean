import ArduinoT2.Adapter.TklWifiScanCall
import ArduinoT2.Wifi.ScanAp
import Mathlib.Data.List.Forall2

/-
  The exits of `tkl_wifi_scan_ap`, in its form for all access points and in its form for one SSID.

  The buffers behind a call are those that the local `apList` tells (`listBlocks`), and the array.
  The form for all does not clear `apList`: when `wlan_sta_scan_result` fails without having
  written it, `SCAN_ERR` reads a pointer that is not there. `scanCall_iff`: this is all that goes
  wrong.
-/

namespace ArduinoT2.Wifi

open ArduinoT2.Adapter

/-! ## Specification -/

/-- The element of an entry: its SSID with a zero byte behind it, and the length of the SSID. -/
structure ItemOf (e : ApEntry) (item : ApIf) : Prop where
  data : item = apIfOf e
  ssid : item.ssid.take item.sLen = e.ssid
  terminated : item.ssid[item.sLen]? = some 0
  sLen : item.sLen = min e.ssid.length 32

/-- The elements of a scan for all: as many as `ApNum` says, but at most 64, in their order. -/
def AllListed (charSigned : Bool) (o : ScanOutcomes) (r : ScanCall) : Prop :=
  ∃ entries items, o.result = .found entries ∧ r.apAry = some items ∧
    (items.length : Int) = min (apNum charSigned entries.length) 64 ∧
    r.num = some items.length ∧
    List.Forall₂ ItemOf (entries.take items.length) items

/-- What a call must do, whatever the outcomes are. -/
structure ScanCallOk (charSigned : Bool) (ssid : Option (List UInt8)) (o : ScanOutcomes)
    (r : ScanCall) : Prop where
  written : r.heap.uninit = false
  failed : r.ret ≠ oprtOk →
    r.apAry = none ∧ r.num = none ∧ r.heap.freed.Perm r.heap.owned
  handed : r.ret = oprtOk →
    r.apAry.isSome = true ∧ r.heap.owned.Perm (.array :: r.heap.freed)
  listed : r.ret = oprtOk → ssid = none → AllListed charSigned o r

/-- The call gets to `wlan_sta_scan_result` in the form for all. -/
def ReadsAll (ssid : Option (List UInt8)) (args : ScanArgs) (o : ScanOutcomes) : Prop :=
  ssid = none ∧ args.apAry = true ∧ args.num = true ∧ args.busy = false ∧
    o.semRet = oprtOk ∧ o.startRet = 0 ∧ o.waitRet = oprtOk

/-! ## Buffers -/

/-- The list, if there is one. -/
def listBlocks (apList : ScanResultAdv) : List ScanBlock :=
  if apList.apList.isSome then [.apList] else []

theorem freeApList_listBlocks {apList : ScanResultAdv} (h : apList.written = true)
    (bs : List ScanBlock) :
    freeApList apList ⟨listBlocks apList ++ bs, [], false⟩ =
      ⟨listBlocks apList ++ bs, listBlocks apList, false⟩ := by
  unfold freeApList listBlocks
  rw [h]
  cases apList.apList with
  | none => rfl
  | some entries => rfl

/-- What `wlan_sta_scan_result` hands over, in a local that it writes unless it fails before. -/
structure Handed (charSigned : Bool) (result : ResultOutcome)
    (r : Int × ScanResultAdv × ScanHeap) : Prop where
  written : r.2.1.written = true
  heap : r.2.2 = ⟨listBlocks r.2.1, [], false⟩
  found : r.1 = 0 → r.2.1.apNum ≠ 0 → ∃ entries, result = .found entries ∧
    r.2.1 = ⟨true, apNum charSigned entries.length, some entries⟩

theorem wlanStaScanResult_handed (charSigned : Bool) {result : ResultOutcome}
    (apList : ScanResultAdv) (h : result ≠ .untouched ∨ apList = .zero) :
    Handed charSigned result (wlanStaScanResult charSigned result apList .empty) := by
  have minus_one : (-1 : Int) ≠ 0 := by decide
  cases result with
  | untouched =>
    obtain rfl := h.resolve_left fun hno => hno rfl
    exact ⟨rfl, rfl, fun hret => absurd hret minus_one⟩
  | noMemory => exact ⟨rfl, rfl, fun hret => absurd hret minus_one⟩
  | found entries =>
    cases entries with
    | nil => exact ⟨rfl, rfl, fun _ hnum => absurd rfl hnum⟩
    | cons e entries => exact ⟨rfl, rfl, fun _ _ => ⟨_, rfl, rfl⟩⟩

/-! ## Exits -/

section Exits

variable {charSigned : Bool} {ssid : Option (List UInt8)} {o : ScanOutcomes}

theorem scanReturn_ok {ret : OperateRet} (h : ret ≠ oprtOk) :
    ScanCallOk charSigned ssid o (scanReturn ret) where
  written := rfl
  failed := fun _ => ⟨rfl, rfl, .refl _⟩
  handed := fun hok => absurd hok h
  listed := fun hok => absurd hok h

theorem scanErrExit_ok {apList : ScanResultAdv} (h : apList.written = true) (array : Bool) :
    ScanCallOk charSigned ssid o
      (scanErrExit apList array
        ⟨listBlocks apList ++ if array then [.array] else [], [], false⟩) := by
  have herr : oprtOsAdapterComError ≠ oprtOk := by decide
  unfold scanErrExit
  rw [freeApList_listBlocks h]
  cases array with
  | true =>
    exact ⟨rfl, fun _ => ⟨rfl, rfl, .refl _⟩, fun hok => absurd hok herr,
      fun hok => absurd hok herr⟩
  | false =>
    refine ⟨rfl, fun _ => ⟨rfl, rfl, ?_⟩, fun hok => absurd hok herr, fun hok => absurd hok herr⟩
    show List.Perm (listBlocks apList) (listBlocks apList ++ [])
    rw [List.append_nil]

theorem handOut_ok {apList : ScanResultAdv} (h : apList.written = true) (array : List ApIf)
    (num : Option Nat)
    (hall : ssid = none → AllListed charSigned o ⟨oprtOk, some array, num, .empty⟩) :
    ScanCallOk charSigned ssid o ⟨oprtOk, some array, num,
      freeApList apList (ScanHeap.gain ⟨listBlocks apList, [], false⟩ .array)⟩ := by
  have hfree := freeApList_listBlocks h [.array]
  have hheap : (ScanHeap.gain ⟨listBlocks apList, [], false⟩ .array) =
      ⟨listBlocks apList ++ [.array], [], false⟩ := rfl
  rw [hheap, hfree]
  exact ⟨rfl, fun hno => absurd rfl hno,
    fun _ => ⟨rfl, List.perm_append_singleton _ _⟩, fun _ hssid => hall hssid⟩

end Exits

/-! ## The elements of a scan for all -/

theorem plainChar_ge (charSigned : Bool) (v : Int) : -128 ≤ plainChar charSigned v := by
  unfold plainChar
  split
  · rw [Int.bmod_def]
    omega
  · omega

theorem plainChar_le (charSigned : Bool) {v : Int} (h : 0 ≤ v) : plainChar charSigned v ≤ v := by
  unfold plainChar
  split
  · rw [Int.bmod_def]
    omega
  · omega

theorem scanItem_eq (charSigned : Bool) (e : ApEntry) : scanItem charSigned e = apIfOf e := by
  have hlen : ¬e.ssid.length > wifiSsidLen := Nat.not_lt.mpr e.ssid_len
  unfold scanItem
  simp only [if_neg hlen, rssi_apPower]
  rw [copySsid_eq List.drop_replicate]
  rfl

theorem itemOf_scanItem (charSigned : Bool) (e : ApEntry) : ItemOf e (scanItem charSigned e) := by
  have hlen := e.ssid_len
  rw [scanItem_eq]
  refine ⟨rfl, List.take_left, ?_, (Nat.min_eq_left hlen).symm⟩
  show (e.ssid ++ List.replicate (33 - e.ssid.length) 0)[e.ssid.length]? = some 0
  rw [List.getElem?_append_right (Nat.le_refl _), Nat.sub_self,
    List.getElem?_replicate_of_lt (by omega)]

/-- The heap has no room for a negative number of elements. -/
theorem pos_of_meets {malloc : Malloc} {n : Int} (hge : -128 ≤ n) (hne : n ≠ 0)
    (h : malloc.meets (apIfBytes n) = true) : 0 < n := by
  have hle := malloc.le _ h
  unfold apIfBytes at hle
  by_cases hneg : n < 0
  · have hmod : 45 * n % 4294967296 = 45 * n + 4294967296 := by
      rw [← Int.add_emod_right, Int.emod_eq_of_lt (by omega) (by omega)]
    rw [hmod] at hle
    omega
  · omega

/-- What the form for all stores. -/
theorem allListed_of_found {charSigned : Bool} {o : ScanOutcomes} {entries : List ApEntry}
    {scanCnt : Int} (hfound : o.result = .found entries)
    (hcnt : scanCnt = min (apNum charSigned entries.length) 64) (hpos : 0 < scanCnt)
    (heap : ScanHeap) :
    AllListed charSigned o ⟨oprtOk,
      some ((entries.take scanCnt.toNat).map (scanItem charSigned)),
      some (scanCnt % 256).toNat, heap⟩ := by
  have hle : apNum charSigned entries.length ≤ entries.length :=
    plainChar_le charSigned (Int.natCast_nonneg _)
  have hlen : ((entries.take scanCnt.toNat).map (scanItem charSigned)).length =
      scanCnt.toNat := by
    rw [List.length_map, List.length_take]
    omega
  refine ⟨entries, _, hfound, rfl, ?_, ?_, ?_⟩
  · rw [hlen, ← hcnt]
    omega
  · show some (scanCnt % 256).toNat = _
    rw [hlen, Int.emod_eq_of_lt (by omega) (by omega)]
  · rw [hlen, List.forall₂_map_right_iff, List.forall₂_same]
    exact fun e _ => itemOf_scanItem charSigned e

/-! ## The forms -/

theorem scanWait_ok {o : ScanOutcomes} :
    scanWait o = oprtOk ↔ o.semRet = oprtOk ∧ o.startRet = 0 ∧ o.waitRet = oprtOk := by
  unfold scanWait
  by_cases hsem : o.semRet = oprtOk
  · rw [if_neg (not_not_intro hsem)]
    by_cases hstart : o.startRet = 0
    · rw [if_pos hstart]
      exact ⟨fun h => ⟨hsem, hstart, h⟩, fun h => h.2.2⟩
    · rw [if_neg hstart]
      exact iff_of_false (by decide) fun h => hstart h.2.1
  · rw [if_pos hsem]
    exact iff_of_false hsem fun h => hsem h.1

/-- An exit without an array. -/
theorem scanErrExit_list {charSigned : Bool} {ssid : Option (List UInt8)} {o : ScanOutcomes}
    {apList : ScanResultAdv} (h : apList.written = true) :
    ScanCallOk charSigned ssid o
      (scanErrExit apList false ⟨listBlocks apList, [], false⟩) := by
  have hexit := @scanErrExit_ok charSigned ssid o apList h false
  rwa [if_neg Bool.false_ne_true, List.append_nil] at hexit

theorem scanCnt_eq (n : Int) : (if n > scanMaxAp then scanMaxAp else n) = min n 64 := by
  unfold scanMaxAp
  omega

/-- The form for all, when `apList` gets written. -/
theorem tklWifiAllApScan_ok {charSigned : Bool} {args : ScanArgs} {o : ScanOutcomes}
    (h : o.result ≠ .untouched) :
    ScanCallOk charSigned none o (tklWifiAllApScan charSigned args o) := by
  obtain ⟨hwritten, hheap, hfound⟩ := wlanStaScanResult_handed charSigned .unset (.inl h)
  unfold tklWifiAllApScan
  split
  · exact scanReturn_ok (by decide)
  split
  · rename_i hret
    exact scanReturn_ok hret
  generalize wlanStaScanResult charSigned o.result .unset .empty = r at hwritten hheap hfound
  obtain ⟨ret, apList, heap⟩ := r
  dsimp only at hwritten hheap hfound ⊢
  rw [hheap, scanCnt_eq]
  split
  · exact scanErrExit_list hwritten
  split
  · exact scanErrExit_list hwritten
  split
  · exact scanErrExit_list hwritten
  · rename_i hresult hcnt hmeets
    obtain ⟨hret, hnum⟩ := not_or.mp hresult
    obtain ⟨entries, hentries, hlist⟩ := hfound (not_not.mp hret) hnum
    have hge := plainChar_ge charSigned entries.length
    refine handOut_ok hwritten _ _ fun _ => ?_
    rw [hlist] at hcnt hmeets ⊢
    have hge' : -128 ≤ min (apNum charSigned entries.length) 64 := by
      rw [apNum]
      omega
    exact allListed_of_found hentries rfl
      (pos_of_meets hge' hcnt ((Bool.not_eq_false _).mp hmeets)) .empty

/-- The form for one SSID. -/
theorem tklWifiScanAp_ok {charSigned : Bool} (ssid : List UInt8) (args : ScanArgs)
    (o : ScanOutcomes) :
    ScanCallOk charSigned (some ssid) o (tklWifiScanAp charSigned (some ssid) args o) := by
  obtain ⟨hwritten, hheap, -⟩ :=
    @wlanStaScanResult_handed charSigned o.result .zero (.inr rfl)
  unfold tklWifiScanAp
  dsimp only
  split
  · exact scanReturn_ok (by decide)
  split
  · rename_i hret
    exact scanReturn_ok hret
  generalize wlanStaScanResult charSigned o.result .zero .empty = r at hwritten hheap
  obtain ⟨ret, apList, heap⟩ := r
  dsimp only at hwritten hheap ⊢
  rw [hheap]
  split
  · exact scanErrExit_list hwritten
  split
  · exact scanErrExit_list hwritten
  split
  · exact scanErrExit_ok hwritten true
  · exact handOut_ok hwritten _ _ fun hno => nomatch hno

/-- The form for all, when `apList` is not written. -/
theorem tklWifiAllApScan_untouched {charSigned : Bool} {args : ScanArgs} {o : ScanOutcomes}
    (hreads : ReadsAll none args o) (h : o.result = .untouched) :
    (tklWifiAllApScan charSigned args o).heap.uninit = true := by
  obtain ⟨-, hary, hnum, hbusy, hwait⟩ := hreads
  unfold tklWifiAllApScan
  rw [if_neg (by simp [hary, hnum, hbusy]), if_neg (not_not_intro (scanWait_ok.mpr hwait)), h]
  rfl

/-- The form for all, when it returns before. -/
theorem tklWifiAllApScan_early {charSigned : Bool} {args : ScanArgs} {o : ScanOutcomes}
    (h : ¬ReadsAll none args o) :
    ScanCallOk charSigned none o (tklWifiAllApScan charSigned args o) := by
  unfold tklWifiAllApScan
  split
  · exact scanReturn_ok (by decide)
  split
  · rename_i hret
    exact scanReturn_ok hret
  · rename_i hargs hret
    simp only [not_or, Bool.not_eq_false, Bool.not_eq_true] at hargs
    exact absurd ⟨rfl, hargs.1, hargs.2.1, hargs.2.2, scanWait_ok.mp (not_not.mp hret)⟩ h

/-- Every exit of both forms is in order, but for the one of the form for all where the local
    `apList` has not been written. -/
theorem scanCall_iff (charSigned : Bool) (ssid : Option (List UInt8)) (args : ScanArgs)
    (o : ScanOutcomes) :
    ScanCallOk charSigned ssid o (tklWifiScanAp charSigned ssid args o) ↔
      ¬(ReadsAll ssid args o ∧ o.result = .untouched) := by
  cases ssid with
  | some ssid => exact iff_of_true (tklWifiScanAp_ok ssid args o) fun h => nomatch h.1.1
  | none =>
    by_cases h : o.result = .untouched
    · by_cases hreads : ReadsAll none args o
      · refine iff_of_false (fun hok => ?_) (not_not_intro ⟨hreads, h⟩)
        exact Bool.false_ne_true (hok.written.symm.trans (tklWifiAllApScan_untouched hreads h))
      · exact iff_of_true (tklWifiAllApScan_early hreads) fun hno => hreads hno.1
    · exact iff_of_true (tklWifiAllApScan_ok h) fun hno => h hno.2

/-- A heap that meets every small request. -/
def smallRequests : Malloc := ⟨fun size => size ≤ 262144, fun _ h => of_decide_eq_true h⟩

/-- The supplicant is not there when the results of a scan for all are asked for. -/
theorem scanCall_no_supplicant :
    ¬ScanCallOk true none ⟨oprtOk, 0, oprtOk, .untouched, smallRequests⟩
      (tklWifiScanAp true none ⟨true, true, false⟩
        ⟨oprtOk, 0, oprtOk, .untouched, smallRequests⟩) :=
  fun hok => absurd hok.written (by decide)

/-- The call as a whole makes of the results what its part behind them does. -/
theorem tklWifiScanAp_results {charSigned : Bool} {args : ScanArgs} {o : ScanOutcomes}
    {apList : List ApEntry} (hary : args.apAry = true) (hbusy : args.busy = false)
    (hwait : scanWait o = oprtOk) (hfound : o.result = .found apList) (ssid : List UInt8)
    (num : Nat) :
    let r := tklWifiScanAp charSigned (some ssid) args o
    let r' := tklWifiScanApResults charSigned apList (o.malloc.meets (apIfBytes 1)) ssid num
    r.ret = r'.ret ∧ r.apAry = r'.apAry.map (fun array => [array]) ∧
      r.heap.owned.Perm (r.heap.freed ++ r'.live) := by
  have hargs : ¬(args.apAry = false ∨ args.busy = true) := by simp [hary, hbusy]
  unfold tklWifiScanAp tklWifiScanApResults
  dsimp only
  rw [if_neg hargs, if_neg (not_not_intro hwait), hfound]
  cases apList with
  | nil =>
    have hzero : apNum charSigned (0 : Nat) = 0 := by cases charSigned <;> decide
    rw [List.length_nil, if_pos rfl, if_pos hzero]
    exact ⟨rfl, rfl, .refl _⟩
  | cons e apList =>
    have hresult : wlanStaScanResult charSigned (.found (e :: apList)) .zero .empty =
        (0, ⟨true, apNum charSigned (e :: apList).length, some (e :: apList)⟩,
          ScanHeap.empty.gain .apList) := rfl
    have hlive : (if (e :: apList).length = 0 then [] else [.apList] : List ScanBlock) =
        [.apList] := rfl
    rw [hresult, hlive]
    by_cases hnum : apNum charSigned (e :: apList).length = 0
    · rw [if_pos (.inr hnum), if_pos hnum]
      exact ⟨rfl, rfl, .refl _⟩
    · rw [if_neg (not_or.mpr ⟨not_not_intro rfl, hnum⟩), if_neg hnum]
      cases o.malloc.meets (apIfBytes 1) with
      | false => exact ⟨rfl, rfl, .refl _⟩
      | true =>
        rw [if_neg (show ¬true = false by decide), if_neg (show ¬(!true) = true by decide)]
        dsimp only [Option.getD_some]
        split
        · exact ⟨rfl, rfl, .refl _⟩
        · exact ⟨rfl, rfl, .refl _⟩

end ArduinoT2.Wifi
