import ArduinoT2.Adapter.TklWifiAp
import Mathlib.Algebra.BigOperators.Group.List.Basic
import Mathlib.Algebra.Ring.Int.Defs

/-
  The trimmed mean of `tkl_wifi_station_get_conn_ap_rssi` (tkl_wifi.c).

  The minimum is compared with `rssi[i]`, the caller's memory, and not with the sample.
  `rssi_trimmed_iff`: nothing behind `*rssi` is read exactly if the second to the fifth call fail,
  and then the call returns an error, as it should. `rssi_ret_iff`: with two calls that fail, it
  returns `OPRT_OK` only if the last one does not. `rssi_mean`: if the calls that fail come first,
  and the memory behind `*rssi` happens to compare as the samples do, the result is the trimmed
  mean.
-/

namespace ArduinoT2.Wifi

open ArduinoT2.Adapter

/-! ## What the call must do -/

/-- A round succeeds. -/
def linkOk (calls : Nat → LinkCall) (i : Nat) : Bool := (calls i).ret = oprtOk

/-- How many of the first `n` rounds fail. -/
def failures (calls : Nat → LinkCall) (n : Nat) : Nat :=
  ((List.range n).filter fun i => !linkOk calls i).length

/-- The samples of the rounds that succeed. -/
def samples (calls : Nat → LinkCall) : List Int :=
  ((List.range 5).filter (linkOk calls)).map fun i => (calls i).wifiStrength

/-- The truncated mean without one largest and one smallest sample, which lies between them. -/
def IsTrimmedMean (xs : List Int) (v : Int) : Prop :=
  ∃ lo ∈ xs, ∃ hi ∈ xs, (∀ x ∈ xs, lo ≤ x ∧ x ≤ hi) ∧
    v = (xs.sum - lo - hi).tdiv (xs.length - 2) ∧ lo ≤ v ∧ v ≤ hi

/-- At most two rounds may fail, then `*rssi` is the trimmed mean. It is left alone otherwise, and
    nothing but its own element is read. -/
structure RssiOk (calls : Nat → LinkCall) (rssi : Nat → Int) : Prop where
  ret : (tklWifiStationGetConnApRssi calls rssi).ret = oprtOk ↔ failures calls 5 ≤ 2
  mean : (tklWifiStationGetConnApRssi calls rssi).ret = oprtOk →
    ∃ v, (tklWifiStationGetConnApRssi calls rssi).stored = some v ∧
      IsTrimmedMean (samples calls) v
  unchanged : (tklWifiStationGetConnApRssi calls rssi).ret ≠ oprtOk →
    (tklWifiStationGetConnApRssi calls rssi).stored = none
  reads : ∀ i ∈ (tklWifiStationGetConnApRssi calls rssi).reads, i = 0

/-! ## The loop -/

section Loop

variable (calls : Nat → LinkCall) (rssi : Nat → Int)

theorem failures_succ (n : Nat) :
    failures calls (n + 1) = failures calls n + if linkOk calls n then 0 else 1 := by
  unfold failures
  rw [List.range_succ, List.filter_append, List.length_append]
  congr 1
  by_cases h : linkOk calls n = true
  · simp [h]
  · simp [h]

/-- The first `n` rounds have counted their failures, and have read an element for each success. -/
theorem rssiLoop_spec (n : Nat) :
    let r := (List.range n).foldl (rssiRound calls rssi) .start
    r.errorCnt = failures calls n ∧ r.reads = (List.range n).filter (linkOk calls) ∧
      r.ret = if n = 0 then oprtOk else (calls (n - 1)).ret := by
  induction n with
  | zero => exact ⟨rfl, rfl, rfl⟩
  | succ n ih =>
    obtain ⟨hcnt, hreads, -⟩ := ih
    rw [failures_succ, List.range_succ, List.foldl_concat, List.filter_append]
    by_cases hok : (calls n).ret = oprtOk
    · have hlink : linkOk calls n = true := decide_eq_true hok
      simp only [rssiRound, hok, if_true, hlink, hcnt, hreads]
      simp [hlink, hok]
    · have hlink : linkOk calls n = false := decide_eq_false hok
      simp only [rssiRound, hok, if_false, hlink, hcnt, hreads]
      simp [hlink]

theorem rssi_reads : (tklWifiStationGetConnApRssi calls rssi).reads =
    (List.range 5).filter (linkOk calls) := by
  obtain ⟨-, hreads, -⟩ := rssiLoop_spec calls rssi 5
  unfold tklWifiStationGetConnApRssi
  simp only
  split
  · exact hreads
  · exact hreads

/-- `*rssi` is stored exactly if at most two rounds fail. -/
theorem rssi_stored_iff : (tklWifiStationGetConnApRssi calls rssi).stored ≠ none ↔
    failures calls 5 ≤ 2 := by
  obtain ⟨hcnt, -, -⟩ := rssiLoop_spec calls rssi 5
  unfold tklWifiStationGetConnApRssi
  simp only [hcnt]
  split
  · rename_i hmany
    exact iff_of_false (fun h => h rfl) (Nat.not_le.mpr hmany)
  · rename_i hfew
    exact iff_of_true (fun h => nomatch h) (Nat.not_lt.mp hfew)

/-- The call returns `OPRT_OK` if at most two rounds fail and the last one does not. -/
theorem rssi_ret_iff : (tklWifiStationGetConnApRssi calls rssi).ret = oprtOk ↔
    failures calls 5 ≤ 2 ∧ linkOk calls 4 = true := by
  obtain ⟨hcnt, -, hret⟩ := rssiLoop_spec calls rssi 5
  unfold tklWifiStationGetConnApRssi
  simp only [hcnt, hret]
  split
  · rename_i hmany
    have herr : oprtComError ≠ oprtOk := by decide
    exact iff_of_false herr (fun h => absurd h.1 (Nat.not_le.mpr hmany))
  · rename_i hfew
    unfold linkOk
    rw [decide_eq_true_iff]
    exact (and_iff_right (Nat.not_lt.mp hfew)).symm

end Loop

/-! ## When the mean is right -/

section Mean

/-- The samples of the first `n` rounds. -/
def samplesTo (calls : Nat → LinkCall) (n : Nat) : List Int :=
  ((List.range n).filter (linkOk calls)).map fun i => (calls i).wifiStrength

/-- Less than the first value of `min_rssi`, and than all samples of the first `n` rounds. -/
def Below (calls : Nat → LinkCall) (n : Nat) (v : Int) : Prop :=
  v < 127 ∧ ∀ x ∈ samplesTo calls n, v < x

/-- Greater than the first value of `max_rssi`, and than all samples of the first `n` rounds. -/
def Above (calls : Nat → LinkCall) (n : Nat) (v : Int) : Prop :=
  -128 < v ∧ ∀ x ∈ samplesTo calls n, x < v

/-- The rounds that fail come first, so that no sample is added twice, the samples fit into an
    `SCHAR`, and each element of `rssi` is below the minimum exactly when the sample is. -/
structure Steady (calls : Nat → LinkCall) (rssi : Nat → Int) : Prop where
  first : ∀ i < 5, linkOk calls i = false → ∀ j < i, linkOk calls j = false
  range : ∀ i < 5, linkOk calls i = true →
    -128 ≤ (calls i).wifiStrength ∧ (calls i).wifiStrength ≤ 127
  memory : ∀ i < 5, linkOk calls i = true →
    (Below calls i (rssi i) ↔ Below calls i (calls i).wifiStrength)

/-- The locals are those of the samples of the first `n` rounds. -/
structure RssiExact (calls : Nat → LinkCall) (n : Nat) (r : RssiLoop) : Prop where
  min : ∀ v, v < r.minRssi ↔ Below calls n v
  max : ∀ v, r.maxRssi < v ↔ Above calls n v
  sum : r.sumRssi = (samplesTo calls n).sum
  tmp : (∀ i < n, linkOk calls i = false) → r.tmpRssi = 0

variable {calls : Nat → LinkCall} {rssi : Nat → Int}

theorem samplesTo_succ_of_ok {n : Nat} (h : linkOk calls n = true) :
    samplesTo calls (n + 1) = samplesTo calls n ++ [(calls n).wifiStrength] := by
  unfold samplesTo
  rw [List.range_succ, List.filter_append, List.map_append]
  simp [h]

theorem samplesTo_succ_of_failed {n : Nat} (h : linkOk calls n = false) :
    samplesTo calls (n + 1) = samplesTo calls n := by
  unfold samplesTo
  rw [List.range_succ, List.filter_append, List.map_append]
  simp [h]

theorem samplesTo_eq_nil {n : Nat} (h : ∀ i < n, linkOk calls i = false) :
    samplesTo calls n = [] := by
  unfold samplesTo
  rw [List.map_eq_nil_iff, List.filter_eq_nil_iff]
  intro i hi
  rw [h i (List.mem_range.mp hi)]
  exact Bool.false_ne_true

theorem length_samplesTo (calls : Nat → LinkCall) (n : Nat) :
    (samplesTo calls n).length + failures calls n = n := by
  unfold samplesTo failures
  rw [List.length_map]
  have hsplit := List.length_eq_length_filter_add (l := List.range n) (linkOk calls)
  rw [List.length_range] at hsplit
  exact hsplit.symm

theorem below_succ {n : Nat} (h : linkOk calls n = true) (v : Int) :
    Below calls (n + 1) v ↔ Below calls n v ∧ v < (calls n).wifiStrength := by
  unfold Below
  rw [samplesTo_succ_of_ok h, List.forall_mem_append, List.forall_mem_singleton, and_assoc]

theorem above_succ {n : Nat} (h : linkOk calls n = true) (v : Int) :
    Above calls (n + 1) v ↔ Above calls n v ∧ (calls n).wifiStrength < v := by
  unfold Above
  rw [samplesTo_succ_of_ok h, List.forall_mem_append, List.forall_mem_singleton, and_assoc]

/-- All samples are in the range of one. -/
theorem Steady.mem_range (h : Steady calls rssi) {n : Nat} (hn : n ≤ 5) {x : Int}
    (hx : x ∈ samplesTo calls n) : -128 ≤ x ∧ x ≤ 127 := by
  obtain ⟨i, hi, rfl⟩ := List.mem_map.mp hx
  obtain ⟨hlt, hlink⟩ := List.mem_filter.mp hi
  exact h.range i (Nat.lt_of_lt_of_le (List.mem_range.mp hlt) hn) hlink

/-- A sum lies between as many times a lower bound, and an upper bound. -/
theorem sum_bounds {xs : List Int} {lo hi : Int} (h : ∀ x ∈ xs, lo ≤ x ∧ x ≤ hi) :
    xs.length * lo ≤ xs.sum ∧ xs.sum ≤ xs.length * hi := by
  induction xs with
  | nil => simp
  | cons x xs ih =>
    obtain ⟨hlo, hhi⟩ := h x List.mem_cons_self
    obtain ⟨hlos, hhis⟩ := ih fun y hy => h y (List.mem_cons_of_mem x hy)
    rw [List.sum_cons, List.length_cons, Int.natCast_succ, Int.add_mul, Int.add_mul, Int.one_mul,
      Int.one_mul]
    omega

/-- Without one least and one greatest element, the sum lies between the bounds all the same. -/
theorem trimmed_bounds {xs : List Int} {lo hi : Int} (hlo : lo ∈ xs) (hhi : hi ∈ xs)
    (h : ∀ x ∈ xs, lo ≤ x ∧ x ≤ hi) :
    (xs.length - 2) * lo ≤ xs.sum - lo - hi ∧ xs.sum - lo - hi ≤ (xs.length - 2) * hi := by
  have hleast := List.perm_cons_erase hlo
  have hgreatest := List.perm_cons_erase hhi
  have hupper : (xs.erase lo).sum ≤ (xs.erase lo).length * hi :=
    (sum_bounds fun y hy => h y (List.mem_of_mem_erase hy)).2
  have hlower : (xs.erase hi).length * lo ≤ (xs.erase hi).sum :=
    (sum_bounds fun y hy => h y (List.mem_of_mem_erase hy)).1
  rw [List.length_erase_of_mem hlo] at hupper
  rw [List.length_erase_of_mem hhi] at hlower
  have hpos := List.length_pos_of_mem hlo
  rw [Int.natCast_sub (Nat.succ_le_of_lt hpos), Int.sub_mul] at hupper hlower
  have hsum := hleast.sum_eq
  have hsum' := hgreatest.sum_eq
  rw [List.sum_cons] at hsum hsum'
  rw [Int.sub_mul, Int.sub_mul]
  omega

/-- The round behind an exact one is exact. -/
theorem rssiRound_exact (h : Steady calls rssi) {n : Nat} (hn : n < 5) {r : RssiLoop}
    (hr : RssiExact calls n r) : RssiExact calls (n + 1) (rssiRound calls rssi r n) := by
  have hbounds := sum_bounds fun x hx => h.mem_range (Nat.le_of_lt hn) hx
  have hlen : (samplesTo calls n).length ≤ 4 := by
    have := length_samplesTo calls n
    omega
  by_cases hok : (calls n).ret = oprtOk
  · have hlink : linkOk calls n = true := decide_eq_true hok
    obtain ⟨hge, hle⟩ := h.range n hn hlink
    have hwide : (calls n).wifiStrength.bmod 65536 = (calls n).wifiStrength :=
      Int.bmod_eq_of_le (by omega) (by omega)
    have hnarrow : (calls n).wifiStrength.bmod 256 = (calls n).wifiStrength :=
      Int.bmod_eq_of_le (by omega) (by omega)
    have hsum : (r.sumRssi + (calls n).wifiStrength).bmod 65536 =
        r.sumRssi + (calls n).wifiStrength := by
      rw [hr.sum]
      exact Int.bmod_eq_of_le (by omega) (by omega)
    have hmin : rssi n < r.minRssi ↔ (calls n).wifiStrength < r.minRssi := by
      rw [hr.min, hr.min]
      exact h.memory n hn hlink
    simp only [rssiRound, hok, if_true, hwide, hnarrow, hsum, hmin]
    refine ⟨fun v => ?_, fun v => ?_, ?_, fun hfail => ?_⟩
    · rw [below_succ hlink, ← hr.min]
      dsimp only
      split <;> omega
    · rw [above_succ hlink, ← hr.max]
      dsimp only
      split <;> omega
    · rw [samplesTo_succ_of_ok hlink, List.sum_append, List.sum_singleton, hr.sum]
    · exact absurd hlink (Bool.eq_false_iff.mp (hfail n (Nat.lt_succ_self n)))
  · have hlink : linkOk calls n = false := decide_eq_false hok
    have hfail := h.first n hn hlink
    have hsame := samplesTo_succ_of_failed hlink
    have hzero := hr.tmp hfail
    have hsum : r.sumRssi = 0 := by rw [hr.sum, samplesTo_eq_nil hfail, List.sum_nil]
    simp only [rssiRound, hok, if_false, hzero, hsum]
    refine ⟨fun v => ?_, fun v => ?_, ?_, fun _ => rfl⟩
    · rw [hr.min v]
      unfold Below
      rw [hsame]
    · rw [hr.max v]
      unfold Above
      rw [hsame]
    · rw [hsame, samplesTo_eq_nil hfail]
      rfl

/-- All rounds are exact. -/
theorem rssiLoop_exact (h : Steady calls rssi) {n : Nat} (hn : n ≤ 5) :
    RssiExact calls n ((List.range n).foldl (rssiRound calls rssi) .start) := by
  induction n with
  | zero =>
    refine ⟨fun v => ?_, fun v => ?_, rfl, fun _ => rfl⟩
    · exact (and_iff_left fun x hx => nomatch hx).symm
    · exact (and_iff_left fun x hx => nomatch hx).symm
  | succ n ih =>
    rw [List.range_succ, List.foldl_concat]
    exact rssiRound_exact h hn (ih (Nat.le_of_lt hn))

/-- The minimum and the maximum of the loop are samples, if there is one. -/
theorem RssiExact.extremes {r : RssiLoop} (hr : RssiExact calls 5 r) (h : Steady calls rssi)
    (hne : samplesTo calls 5 ≠ []) :
    r.minRssi ∈ samplesTo calls 5 ∧ r.maxRssi ∈ samplesTo calls 5 ∧
      ∀ x ∈ samplesTo calls 5, r.minRssi ≤ x ∧ x ≤ r.maxRssi := by
  obtain ⟨y, hy⟩ := List.exists_mem_of_ne_nil _ hne
  have hmin : ∀ x ∈ samplesTo calls 5, r.minRssi ≤ x := fun x hx => by
    have := ((hr.min (r.minRssi - 1)).mp (by omega)).2 x hx
    omega
  have hmax : ∀ x ∈ samplesTo calls 5, x ≤ r.maxRssi := fun x hx => by
    have := ((hr.max (r.maxRssi + 1)).mp (by omega)).2 x hx
    omega
  have hrange := h.mem_range (Nat.le_refl 5) hy
  refine ⟨?_, ?_, fun x hx => ⟨hmin x hx, hmax x hx⟩⟩
  · by_contra hmem
    have hall : ∀ x ∈ samplesTo calls 5, r.minRssi < x := fun x hx =>
      Int.lt_iff_le_and_ne.mpr ⟨hmin x hx, fun heq => hmem (heq.symm ▸ hx)⟩
    have hlt := hall y hy
    exact absurd ((hr.min r.minRssi).mpr ⟨by omega, hall⟩) (Int.lt_irrefl _)
  · by_contra hmem
    have hall : ∀ x ∈ samplesTo calls 5, x < r.maxRssi := fun x hx =>
      Int.lt_iff_le_and_ne.mpr ⟨hmax x hx, fun heq => hmem (heq ▸ hx)⟩
    have hlt := hall y hy
    exact absurd ((hr.max r.maxRssi).mpr ⟨by omega, hall⟩) (Int.lt_irrefl _)

/-- If at most two rounds fail, all of them before the first that succeeds, and the memory at `rssi`
    does as well as the samples, the call returns `OPRT_OK`, and `*rssi` is the trimmed mean. -/
theorem rssi_mean (h : Steady calls rssi) (hfew : failures calls 5 ≤ 2) :
    (tklWifiStationGetConnApRssi calls rssi).ret = oprtOk ∧
      ∃ v, (tklWifiStationGetConnApRssi calls rssi).stored = some v ∧
        IsTrimmedMean (samples calls) v := by
  have hexact := rssiLoop_exact h (Nat.le_refl 5)
  obtain ⟨hcnt, -, -⟩ := rssiLoop_spec calls rssi 5
  have hlen := length_samplesTo calls 5
  have hne : samplesTo calls 5 ≠ [] := fun hnil => by
    rw [hnil] at hlen
    change 0 + _ = 5 at hlen
    omega
  have hlast : linkOk calls 4 = true := by
    by_contra hfail
    have hall := h.first 4 (by decide) (Bool.eq_false_iff.mpr hfail)
    refine hne (samplesTo_eq_nil fun i hi => ?_)
    rcases Nat.lt_or_eq_of_le (Nat.le_of_lt_succ hi) with hlt | heq
    · exact hall i hlt
    · exact heq ▸ Bool.eq_false_iff.mpr hfail
  refine ⟨(rssi_ret_iff calls rssi).mpr ⟨hfew, hlast⟩, ?_⟩
  generalize hr : (List.range 5).foldl (rssiRound calls rssi) .start = r at hexact hcnt
  obtain ⟨hmin, hmax, hall⟩ := hexact.extremes h hne
  obtain ⟨hlower, hupper⟩ := trimmed_bounds hmin hmax hall
  have hcount : ((samplesTo calls 5).length : Int) - 2 = 3 - (r.errorCnt : Int) := by omega
  have hpos : 0 < 3 - (r.errorCnt : Int) := by omega
  rw [hcount] at hlower hupper
  have hge := Int.tdiv_le_tdiv hpos hlower
  have hle := Int.tdiv_le_tdiv hpos hupper
  rw [Int.mul_tdiv_cancel_left _ (Int.ne_of_gt hpos)] at hge hle
  have hrange := h.mem_range (Nat.le_refl 5) hmin
  have hrange' := h.mem_range (Nat.le_refl 5) hmax
  unfold tklWifiStationGetConnApRssi
  rw [hr]
  simp only [if_neg (show ¬r.errorCnt > 2 by omega)]
  rw [hexact.sum]
  refine ⟨_, congrArg some (Int.bmod_eq_of_le ?_ ?_), r.minRssi, hmin, r.maxRssi, hmax, hall, ?_,
    hge, hle⟩
  · omega
  · omega
  · rw [← hcount]
    rfl

end Mean

/-! ## All outcomes -/

/-- If only the first round may succeed, four fail at least. -/
theorem failures_four {calls : Nat → LinkCall} (h : ∀ i < 4, linkOk calls (i + 1) = false) :
    4 ≤ failures calls 5 := by
  have h0 := h 0 (by decide)
  have h1 := h 1 (by decide)
  have h2 := h 2 (by decide)
  have h3 := h 3 (by decide)
  simp only [Nat.zero_add] at h0
  simp only [failures_succ, h0, h1, h2, h3]
  simp

/-- For all outcomes of the five calls, and whatever the memory at `rssi` holds: the call does what
    it must if and only if the second to the fifth call fail. -/
theorem rssi_trimmed_iff (calls : Nat → LinkCall) (rssi : Nat → Int) :
    RssiOk calls rssi ↔ ∀ i < 4, linkOk calls (i + 1) = false := by
  constructor
  · intro hok i hi
    by_contra hlink
    have hmem : i + 1 ∈ (tklWifiStationGetConnApRssi calls rssi).reads := by
      rw [rssi_reads, List.mem_filter, List.mem_range]
      exact ⟨by omega, Bool.not_eq_false _ ▸ hlink⟩
    exact absurd (hok.reads _ hmem) (Nat.succ_ne_zero i)
  · intro hfail
    have hfour := failures_four hfail
    have hret := (rssi_ret_iff calls rssi).not.mpr fun h => absurd h.1 (by omega)
    refine ⟨iff_of_false hret (by omega), fun h => absurd h hret, fun _ => ?_, fun i hi => ?_⟩
    · by_contra hstored
      exact absurd ((rssi_stored_iff calls rssi).mp hstored) (by omega)
    · rw [rssi_reads, List.mem_filter, List.mem_range] at hi
      by_contra hne
      have := hfail (i - 1) (by omega)
      rw [Nat.sub_add_cancel (Nat.pos_of_ne_zero hne), hi.2] at this
      exact nomatch this

/-- Five samples of -50 dBm, with 127 in the memory at `rssi`: the result is -109. -/
theorem rssi_trimmed_steady : ¬RssiOk (fun _ => ⟨oprtOk, -50⟩) (fun _ => 127) ∧
    (tklWifiStationGetConnApRssi (fun _ => ⟨oprtOk, -50⟩) (fun _ => 127)).stored = some (-109) := by
  refine ⟨fun hok => ?_, by decide⟩
  exact absurd (hok.reads 1 (by decide)) (by decide)

end ArduinoT2.Wifi
