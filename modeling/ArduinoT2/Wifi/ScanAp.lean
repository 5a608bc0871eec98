import ArduinoT2.Adapter.TklWifiAp
import Mathlib.Data.List.Induction

/-
  The access point that a scan for one SSID returns (tkl_wifi.c).

  The loop keeps the best element from -100 dBm on, and compares it with `ApPower`, a plain `char`.
  `signed_best` says what it has found if `char` is signed, `unsigned_last` if it is not: then no
  entry is weaker than the element, and the last one is taken. `num` is never written.
  `scan_strongest_iff` says for which results the call does what it must: those without an entry of
  the SSID, and those whose strongest one is the one that the loop takes, where `*num` is 1 before.
-/

namespace ArduinoT2.Wifi

open ArduinoT2.Adapter

/-! ## What the call must do -/

/-- The element of an entry. -/
def apIfOf (e : ApEntry) : ApIf where
  channel := e.channel
  rssi := e.power
  bssid := e.bssid
  ssid := e.ssid ++ List.replicate (33 - e.ssid.length) 0
  sLen := e.ssid.length
  security := e.security

/-- No entry of the SSID is stronger than `e`. -/
def Strongest (apList : List ApEntry) (ssid : List UInt8) (e : ApEntry) : Prop :=
  ∀ e' ∈ apList, e'.ssid = ssid → e'.power ≤ e.power

/-- The call returns `OPRT_OK` if and only if there is an entry of the SSID, with 1 in `*num` and
    the strongest one of them; otherwise it leaves `*ap_ary` and has freed all blocks. -/
structure ScanApOk (apList : List ApEntry) (ssid : List UInt8) (r : ScanApResult) : Prop where
  ret : r.ret = oprtOk ↔ ∃ e ∈ apList, e.ssid = ssid
  found : r.ret = oprtOk → r.num = 1 ∧
    ∃ e ∈ apList, e.ssid = ssid ∧ Strongest apList ssid e ∧ r.apAry = some (apIfOf e)
  failed : r.ret ≠ oprtOk → r.apAry = none ∧ r.live = []

/-- The entries that the loop visits: as many as `ApNum` says. -/
def visited (charSigned : Bool) (apList : List ApEntry) : List ApEntry :=
  apList.take (apNum charSigned apList.length).toNat

/-- The entries among them that have the SSID. -/
def candidates (charSigned : Bool) (apList : List ApEntry) (ssid : List UInt8) : List ApEntry :=
  (visited charSigned apList).filter fun e => e.ssid = ssid

/-- The loop takes a strongest entry: a visited one of at least -100 dBm if `char` is signed, the
    last visited one if it is not. -/
def TakesStrongest (charSigned : Bool) (apList : List ApEntry) (ssid : List UInt8) : Prop :=
  if charSigned then ∃ e ∈ candidates true apList ssid, -100 ≤ e.power ∧ Strongest apList ssid e
  else ∃ e, (candidates false apList ssid).getLast? = some e ∧ Strongest apList ssid e

/-- The results and the states before the call for which it does what it must. -/
def ScanApMeets (charSigned : Bool) (apList : List ApEntry) (allocated : Bool) (ssid : List UInt8)
    (num : Nat) : Prop :=
  (∀ e ∈ apList, e.ssid ≠ ssid) ∨
    (allocated = true ∧ num = 1 ∧ TakesStrongest charSigned apList ssid)

/-! ## One entry -/

theorem apPower_signed (e : ApEntry) : e.apPower true = e.power := by
  have hge := e.power_ge
  have hle := e.power_le
  unfold ApEntry.apPower plainChar
  rw [if_pos rfl, Int.bmod_def]
  omega

/-- An unsigned `char` is never negative. -/
theorem apPower_unsigned (e : ApEntry) : 0 ≤ e.apPower false := by
  unfold ApEntry.apPower plainChar
  rw [if_neg Bool.false_ne_true]
  omega

/-- `rssi` is a signed `char`, and gets the power back. -/
theorem rssi_apPower (charSigned : Bool) (e : ApEntry) :
    (e.apPower charSigned).bmod 256 = e.power := by
  have hge := e.power_ge
  have hle := e.power_le
  cases charSigned with
  | true =>
    rw [apPower_signed, Int.bmod_def]
    omega
  | false =>
    unfold ApEntry.apPower plainChar
    rw [if_neg Bool.false_ne_true, Int.bmod_def]
    omega

/-- The rest of the array behind the SSID is 0: the element is new, or of this SSID already. -/
def CleanFor (ssid : List UInt8) (array : ApIf) : Prop :=
  array.ssid.drop ssid.length = List.replicate (33 - ssid.length) 0

theorem cleanFor_start (ssid : List UInt8) : CleanFor ssid .start := List.drop_replicate

theorem cleanFor_apIfOf (e : ApEntry) : CleanFor e.ssid (apIfOf e) := by
  unfold CleanFor apIfOf
  simp

theorem copySsid_eq {dst src : List UInt8}
    (h : dst.drop src.length = List.replicate (33 - src.length) 0) :
    copySsid dst src src.length = src ++ List.replicate (33 - src.length) 0 := by
  unfold copySsid
  simp [h]

/-- The entries of another SSID are skipped, -/
theorem scanPick_other (charSigned : Bool) {ssid : List UInt8} (r : ApIf × Nat) {e : ApEntry}
    (h : e.ssid ≠ ssid) : scanPick charSigned ssid r e = r := by
  unfold scanPick
  simp only [if_pos h]

/-- and the weaker ones; -/
theorem scanPick_weaker {charSigned : Bool} {ssid : List UInt8} {r : ApIf × Nat} {e : ApEntry}
    (h : e.apPower charSigned < r.1.rssi) : scanPick charSigned ssid r e = r := by
  unfold scanPick
  simp only [if_pos h]
  exact ite_self r

/-- the other ones are taken. -/
theorem scanPick_taken {charSigned : Bool} {ssid : List UInt8} {r : ApIf × Nat} {e : ApEntry}
    (hssid : e.ssid = ssid) (hpower : ¬e.apPower charSigned < r.1.rssi)
    (hclean : CleanFor ssid r.1) : scanPick charSigned ssid r e = (apIfOf e, r.2 + 1) := by
  have hlen : ¬e.ssid.length > wifiSsidLen := Nat.not_lt.mpr e.ssid_len
  have hsame : ¬e.ssid ≠ ssid := not_not.mpr hssid
  unfold scanPick
  simp only [if_neg hsame, if_neg hpower, if_neg hlen, rssi_apPower]
  rw [copySsid_eq (by rw [hssid]; exact hclean)]
  rfl

/-! ## The loop -/

/-- With a signed `char`, the loop has found a strongest entry among those of at least -100 dBm. -/
theorem signed_best (ssid : List UInt8) (l : List ApEntry) :
    let r := l.foldl (scanPick true ssid) (.start, 0)
    (r = (.start, 0) ∧ ∀ e ∈ l, e.ssid = ssid → e.power < -100) ∨
      (0 < r.2 ∧ ∃ e ∈ l, e.ssid = ssid ∧ -100 ≤ e.power ∧ r.1 = apIfOf e ∧
        Strongest l ssid e) := by
  induction l using List.reverseRecOn with
  | nil => exact .inl ⟨rfl, fun e he => nomatch he⟩
  | append_singleton l e ih =>
    simp only [List.foldl_concat]
    generalize l.foldl (scanPick true ssid) (.start, 0) = r at ih ⊢
    have hall : ∀ {P : ApEntry → Prop}, (∀ e' ∈ l, P e') → P e → ∀ e' ∈ l ++ [e], P e' := by
      intro P hl he e' he'
      rcases List.mem_append.mp he' with h | h
      · exact hl e' h
      · rwa [List.mem_singleton.mp h]
    by_cases hssid : e.ssid = ssid
    · rcases ih with ⟨rfl, hweak⟩ | ⟨hpos, best, hbest, hbssid, hge, harray, hmax⟩
      · by_cases hpower : e.power < -100
        · rw [scanPick_weaker (by rw [apPower_signed]; exact hpower)]
          exact .inl ⟨rfl, hall hweak fun _ => hpower⟩
        · rw [scanPick_taken hssid (by rw [apPower_signed]; exact hpower) (cleanFor_start ssid)]
          refine .inr ⟨Nat.succ_pos _, e, by simp, hssid, by omega, rfl,
            hall ?_ fun _ => Int.le_refl _⟩
          intro e' he' hs
          have := hweak e' he' hs
          omega
      · have hrssi : r.1.rssi = best.power := by rw [harray]; rfl
        by_cases hpower : e.power < best.power
        · rw [scanPick_weaker (by rw [apPower_signed, hrssi]; exact hpower)]
          exact .inr ⟨hpos, best, List.mem_append_left _ hbest, hbssid, hge, harray,
            hall hmax fun _ => Int.le_of_lt hpower⟩
        · have hclean : CleanFor ssid r.1 := by
            rw [harray, ← hbssid]
            exact cleanFor_apIfOf best
          rw [scanPick_taken hssid (by rw [apPower_signed, hrssi]; exact hpower) hclean]
          refine .inr ⟨Nat.succ_pos _, e, by simp, hssid, by omega, rfl,
            hall ?_ fun _ => Int.le_refl _⟩
          intro e' he' hs
          have := hmax e' he' hs
          omega
    · rw [scanPick_other true r hssid]
      rcases ih with ⟨hr, hweak⟩ | ⟨hpos, best, hbest, hbssid, hge, harray, hmax⟩
      · exact .inl ⟨hr, hall hweak fun hs => absurd hs hssid⟩
      · exact .inr ⟨hpos, best, List.mem_append_left _ hbest, hbssid, hge, harray,
          hall hmax fun hs => absurd hs hssid⟩

/-- With an unsigned `char`, the loop has taken the last entry of the SSID. -/
theorem unsigned_last (ssid : List UInt8) (l : List ApEntry) :
    let r := l.foldl (scanPick false ssid) (.start, 0)
    (r = (.start, 0) ∧ l.filter (fun e => e.ssid = ssid) = []) ∨
      (0 < r.2 ∧ ∃ e, (l.filter fun e => e.ssid = ssid).getLast? = some e ∧
        r.1 = apIfOf e) := by
  induction l using List.reverseRecOn with
  | nil => exact .inl ⟨rfl, rfl⟩
  | append_singleton l e ih =>
    simp only [List.foldl_concat, List.filter_append]
    generalize l.foldl (scanPick false ssid) (.start, 0) = r at ih ⊢
    by_cases hssid : e.ssid = ssid
    · -- the element has a power of at most 0
      have hstate : r.1.rssi ≤ 0 ∧ CleanFor ssid r.1 := by
        rcases ih with ⟨rfl, -⟩ | ⟨-, last, hlast, harray⟩
        · exact ⟨by decide, cleanFor_start ssid⟩
        · have hmem := List.mem_filter.mp (List.mem_of_getLast? hlast)
          have hlssid : last.ssid = ssid := of_decide_eq_true hmem.2
          rw [harray, ← hlssid]
          exact ⟨last.power_le, cleanFor_apIfOf last⟩
      have hpower := apPower_unsigned e
      rw [scanPick_taken hssid (by omega) hstate.2]
      exact .inr ⟨Nat.succ_pos _, e, by simp [hssid], rfl⟩
    · rw [scanPick_other false r hssid]
      simpa [hssid] using ih

/-! ## All results -/

/-- The element and the count behind the loop. -/
def picked (charSigned : Bool) (apList : List ApEntry) (ssid : List UInt8) : ApIf × Nat :=
  (visited charSigned apList).foldl (scanPick charSigned ssid) (.start, 0)

/-- Where `ApNum` is 0, nothing is visited. -/
theorem picked_none {charSigned : Bool} {apList : List ApEntry}
    (h : apNum charSigned apList.length = 0) (ssid : List UInt8) :
    picked charSigned apList ssid = (.start, 0) := by
  unfold picked visited
  rw [h]
  rfl

theorem scan_num (charSigned : Bool) (apList : List ApEntry) (allocated : Bool)
    (ssid : List UInt8) (num : Nat) :
    (tklWifiScanApResults charSigned apList allocated ssid num).num = num := by
  unfold tklWifiScanApResults
  simp only
  split
  · rfl
  split
  · rfl
  split
  · rfl
  · rfl

theorem scan_found {charSigned : Bool} {apList : List ApEntry} {ssid : List UInt8}
    (h : (picked charSigned apList ssid).2 ≠ 0) (num : Nat) :
    (tklWifiScanApResults charSigned apList true ssid num).ret = oprtOk ∧
      (tklWifiScanApResults charSigned apList true ssid num).apAry =
        some (picked charSigned apList ssid).1 := by
  have hnum : apNum charSigned apList.length ≠ 0 := fun hzero => h (by rw [picked_none hzero])
  unfold picked visited at h ⊢
  unfold tklWifiScanApResults
  simp only [if_neg hnum, if_neg h, Bool.not_true, Bool.false_eq_true, if_false]
  exact ⟨trivial, trivial⟩

/-- A call that fails frees what has been allocated. -/
theorem scan_failed {charSigned : Bool} {apList : List ApEntry} {allocated : Bool}
    {ssid : List UInt8} (h : allocated = false ∨ (picked charSigned apList ssid).2 = 0)
    (num : Nat) : tklWifiScanApResults charSigned apList allocated ssid num =
      ⟨oprtOsAdapterComError, none, num, []⟩ := by
  have hfree : ∀ live : List ScanBlock, live = [] ∨ live = [.apList] →
      scanErr num live = ⟨oprtOsAdapterComError, none, num, []⟩ ∧
        scanErr num (live ++ [.array]) = ⟨oprtOsAdapterComError, none, num, []⟩ := by
    rintro live (rfl | rfl)
    · exact ⟨rfl, rfl⟩
    · exact ⟨rfl, rfl⟩
  have hlive : (if apList.length = 0 then [] else [.apList] : List ScanBlock) = [] ∨
      (if apList.length = 0 then [] else [.apList] : List ScanBlock) = [.apList] := by
    split
    · exact .inl rfl
    · exact .inr rfl
  obtain ⟨hfree, hfree'⟩ := hfree _ hlive
  unfold tklWifiScanApResults
  simp only
  split
  · exact hfree
  split
  · exact hfree
  · rename_i hallocated
    have hpicked := h.resolve_left fun hno => hallocated (by rw [hno]; rfl)
    unfold picked visited at hpicked
    rw [if_pos hpicked]
    exact hfree'

theorem candidates_mem {charSigned : Bool} {apList : List ApEntry} {ssid : List UInt8}
    {e : ApEntry} (h : e ∈ candidates charSigned apList ssid) : e ∈ apList ∧ e.ssid = ssid := by
  obtain ⟨hmem, hssid⟩ := List.mem_filter.mp h
  exact ⟨List.mem_of_mem_take hmem, of_decide_eq_true hssid⟩

/-- What the loop takes has the SSID, and no other strength than the entry whose element it is. -/
theorem picked_entry {charSigned : Bool} {apList : List ApEntry} {ssid : List UInt8}
    (h : (picked charSigned apList ssid).2 ≠ 0) :
    ∃ e ∈ apList, e.ssid = ssid ∧ (picked charSigned apList ssid).1 = apIfOf e ∧
      (Strongest apList ssid e → TakesStrongest charSigned apList ssid) := by
  cases charSigned with
  | true =>
    rcases signed_best ssid (visited true apList) with ⟨hr, -⟩ | ⟨-, e, hmem, hssid, hge, hr, -⟩
    · exact absurd (congrArg Prod.snd hr) h
    · refine ⟨e, List.mem_of_mem_take hmem, hssid, hr, fun hstrong => ?_⟩
      unfold TakesStrongest
      rw [if_pos rfl]
      exact ⟨e, List.mem_filter.mpr ⟨hmem, decide_eq_true hssid⟩, hge, hstrong⟩
  | false =>
    rcases unsigned_last ssid (visited false apList) with ⟨hr, -⟩ | ⟨-, e, hlast, hr⟩
    · exact absurd (congrArg Prod.snd hr) h
    · obtain ⟨hmem, hssid⟩ := candidates_mem (List.mem_of_getLast? hlast)
      refine ⟨e, hmem, hssid, hr, fun hstrong => ?_⟩
      unfold TakesStrongest
      rw [if_neg Bool.false_ne_true]
      exact ⟨e, hlast, hstrong⟩

/-- If the loop takes a strongest entry, the element is that of one. -/
theorem picked_strongest {charSigned : Bool} {apList : List ApEntry} {ssid : List UInt8}
    (h : TakesStrongest charSigned apList ssid) :
    (picked charSigned apList ssid).2 ≠ 0 ∧ ∃ e ∈ apList, e.ssid = ssid ∧
      Strongest apList ssid e ∧ (picked charSigned apList ssid).1 = apIfOf e := by
  cases charSigned with
  | true =>
    unfold TakesStrongest at h
    rw [if_pos rfl] at h
    obtain ⟨best, hbest, hge, hstrong⟩ := h
    obtain ⟨hvisited, hbssid⟩ := List.mem_filter.mp hbest
    have hbssid := of_decide_eq_true hbssid
    rcases signed_best ssid (visited true apList) with
      ⟨-, hweak⟩ | ⟨hpos, e, hmem, hssid, -, hr, hmax⟩
    · have := hweak best hvisited hbssid
      omega
    · refine ⟨Nat.ne_of_gt hpos, e, List.mem_of_mem_take hmem, hssid, fun e' he' hs => ?_, hr⟩
      exact Int.le_trans (hstrong e' he' hs) (hmax best hvisited hbssid)
  | false =>
    unfold TakesStrongest at h
    rw [if_neg Bool.false_ne_true] at h
    obtain ⟨last, hlast, hstrong⟩ := h
    obtain ⟨hmem, hssid⟩ := candidates_mem (List.mem_of_getLast? hlast)
    rcases unsigned_last ssid (visited false apList) with ⟨-, hnone⟩ | ⟨hpos, e, he, hr⟩
    · have hcand : candidates false apList ssid = [] := hnone
      rw [hcand] at hlast
      exact nomatch hlast
    · obtain rfl : last = e := Option.some.inj (hlast.symm.trans he)
      exact ⟨Nat.ne_of_gt hpos, last, hmem, hssid, hstrong, hr⟩

/-- Elements of entries with one power have one power. -/
theorem power_of_apIfOf {e e' : ApEntry} (h : apIfOf e = apIfOf e') : e.power = e'.power :=
  congrArg ApIf.rssi h

/-- For all results of a scan, whether plain `char` is signed or not: the call does what it must if
    and only if there is no entry of the SSID, or there is memory, `*num` holds 1 already, and the
    entry that the loop takes is a strongest one. -/
theorem scan_strongest_iff (charSigned : Bool) (apList : List ApEntry) (allocated : Bool)
    (ssid : List UInt8) (num : Nat) :
    ScanApOk apList ssid (tklWifiScanApResults charSigned apList allocated ssid num) ↔
      ScanApMeets charSigned apList allocated ssid num := by
  have herr : oprtOsAdapterComError ≠ oprtOk := by decide
  by_cases hany : ∃ e ∈ apList, e.ssid = ssid
  · have hno : ¬∀ e ∈ apList, e.ssid ≠ ssid := fun hall =>
      hany.elim fun e he => hall e he.1 he.2
    unfold ScanApMeets
    rw [or_iff_right hno]
    by_cases hfail : allocated = false ∨ (picked charSigned apList ssid).2 = 0
    · rw [scan_failed hfail]
      refine iff_of_false (fun hok => herr (hok.ret.mpr hany)) ?_
      rintro ⟨hallocated, -, htakes⟩
      rcases hfail with hno | hno
      · exact nomatch hallocated.symm.trans hno
      · exact (picked_strongest htakes).1 hno
    · rw [not_or, Bool.not_eq_false] at hfail
      obtain ⟨rfl, hpicked⟩ := hfail
      obtain ⟨hret, hary⟩ := scan_found hpicked num
      have hnum := scan_num charSigned apList true ssid num
      constructor
      · intro hok
        obtain ⟨hone, e, -, -, hstrong, he⟩ := hok.found hret
        obtain ⟨e₀, -, -, he₀, htakes⟩ := picked_entry hpicked
        rw [hary, he₀] at he
        have hpower := power_of_apIfOf (Option.some.inj he)
        refine ⟨rfl, hnum.symm.trans hone, htakes fun e' he' hs => ?_⟩
        rw [hpower]
        exact hstrong e' he' hs
      · rintro ⟨-, hone, htakes⟩
        obtain ⟨-, e, hmem, hssid, hstrong, he⟩ := picked_strongest htakes
        refine ⟨iff_of_true hret hany, fun _ => ⟨hnum.trans hone, e, hmem, hssid, hstrong, ?_⟩,
          fun h => absurd hret h⟩
        rw [hary, he]
  · have hnone : (picked charSigned apList ssid).2 = 0 := by
      by_contra hne
      obtain ⟨e, hmem, hssid, -⟩ := picked_entry hne
      exact hany ⟨e, hmem, hssid⟩
    rw [scan_failed (.inr hnone)]
    refine iff_of_true ⟨iff_of_false herr hany, fun h => absurd h herr, fun _ => ⟨rfl, rfl⟩⟩ ?_
    exact .inl fun e he hs => hany ⟨e, he, hs⟩

/-- One entry, at -60 dBm. -/
def oneAp : ApEntry :=
  ⟨[0x61], -60, [0, 0, 0, 0, 0, 1], 6, 0, by decide, by decide, by decide, by decide⟩

/-- The entry is found, but `*num` is what it was. -/
theorem scan_strongest_num :
    ¬ScanApOk [oneAp] [0x61] (tklWifiScanApResults true [oneAp] true [0x61] 0) := by
  intro hok
  exact absurd (hok.found rfl).1 (by decide)

end ArduinoT2.Wifi
