import ArduinoT2.Adapter.TklAdcData
import ArduinoT2.Driver.AdcConvert

/-
  The slots of a bulk read of the ADC (tkl_adc.c): where the reads of the channels write, and what
  they leave there.

  The channels are read in ascending order, and each has the slot after the previous one. A read
  writes to its own slot only (`slotMem_outside`), and what it leaves there depends on what was
  there before, the samples and the conversion (`slotMem_content`). `bulkRead_loop` is the loop of
  `tkl_adc_read_data` as the reads of the configured channels, slot after slot.
-/

namespace ArduinoT2.Driver

open ArduinoT2.Adapter ArduinoT2.Vendor

/-! ## Addresses -/

/-- `&buff[j * data_buff_size]`. -/
def slotData (buff : UInt32) (size : UInt8) (j : Nat) : UInt32 :=
  buff + 4 * (UInt32.ofNat j * size.toUInt32)

/-- The half-words of a slot, from the start of the buffer. -/
theorem halfword_slotData (buff : UInt32) (size : UInt8) (j i : Nat) :
    halfword (slotData buff size j) i = halfword buff (2 * (j * size.toNat) + i) := by
  have hsize : size.toUInt32 = UInt32.ofNat size.toNat :=
    UInt32.toNat_inj.mp (by
      have := size.toNat_lt
      rw [UInt8.toNat_toUInt32, UInt32.toNat_ofNat_of_lt' (show _ < 2 ^ 32 by omega)])
  unfold halfword slotData
  rw [hsize, UInt32.ofNat_add, UInt32.ofNat_mul, UInt32.ofNat_mul,
    show UInt32.ofNat 2 = 2 from rfl]
  grind

theorem halfword_inj {base : UInt32} {i j : Nat} (hi : i < 2 ^ 31) (hj : j < 2 ^ 31)
    (h : halfword base i = halfword base j) : i = j := by
  by_contra hne
  exact halfword_ne hi hj hne h

theorem mem_halfwords {data : UInt32} {n : Nat} {a : UInt32} :
    a ∈ halfwords data n ↔ ∃ i < n, a = halfword data i := by
  unfold halfwords
  rw [List.mem_map]
  constructor
  · rintro ⟨i, hi, rfl⟩
    exact ⟨i, List.mem_range.mp hi, rfl⟩
  · rintro ⟨i, hi, rfl⟩
    exact ⟨i, List.mem_range.mpr hi, rfl⟩

/-! ## One slot -/

theorem storeSamples_other (data : UInt32) {a : UInt32} (vs : List UInt16) :
    ∀ (i : Nat) (mem : UInt32 → UInt16), (∀ k, i ≤ k → k < i + vs.length → a ≠ halfword data k) →
      storeSamples data i vs mem a = mem a := by
  induction vs with
  | nil => exact fun _ _ _ => rfl
  | cons v vs ih =>
    intro i mem h
    have hfirst := h i (Nat.le_refl i) (by simp)
    have hrest : ∀ k, i + 1 ≤ k → k < i + 1 + vs.length → a ≠ halfword data k := by
      intro k hk hk'
      exact h k (by omega) (by rw [List.length_cons]; omega)
    rw [storeSamples, ih (i + 1) _ hrest, Function.update_of_ne hfirst]

/-- The samples are at the front of the slot, the rest is as it was. -/
theorem storeSamples_get (data : UInt32) {k : Nat} (hk : k < 2 ^ 31) (vs : List UInt16) :
    ∀ (i : Nat) (mem : UInt32 → UInt16), i + vs.length ≤ 2 ^ 31 →
      storeSamples data i vs mem (halfword data k) =
        if i ≤ k ∧ k < i + vs.length then vs.getD (k - i) 0 else mem (halfword data k) := by
  induction vs with
  | nil =>
    intro i mem _
    rw [if_neg (by rw [List.length_nil]; omega)]
    rfl
  | cons v vs ih =>
    intro i mem hlen
    rw [List.length_cons] at hlen ⊢
    rw [storeSamples, ih (i + 1) _ (by omega)]
    by_cases hik : i = k
    · subst hik
      rw [if_neg (by omega), if_pos (by omega), Function.update_self, Nat.sub_self]
      rfl
    · rw [Function.update_of_ne (halfword_ne hk (by omega) (Ne.symm hik))]
      by_cases hin : i + 1 ≤ k ∧ k < i + 1 + vs.length
      · rw [if_pos hin, if_pos (by omega), show k - i = k - (i + 1) + 1 by omega]
        rfl
      · rw [if_neg hin, if_neg (by omega)]

/-- The loop over the samples writes to its results only. -/
theorem adcConvertLoop_other (adcMv : UInt16 → UInt16) (pData data : UInt32) {a : UInt32} {n : Nat}
    (mem : UInt32 → UInt16) (h : ∀ k < 2 * n, a ≠ halfword data k) :
    adcConvertLoop adcMv pData data n mem a = mem a := by
  induction n generalizing mem with
  | zero => rfl
  | succ n ih =>
    have hlow := h (2 * n) (by omega)
    have hhigh := h (2 * n + 1) (by omega)
    rw [adcConvertLoop, ih _ fun k hk => h k (by omega)]
    unfold writeData
    rw [Function.update_of_ne hhigh, Function.update_of_ne hlow]

/-- How many half-words of its slot a read writes: all of them if the loop over the samples runs,
    else the samples. -/
def touched (size : UInt8) (count : Nat) : Nat := if size.toNat ≤ 128 then 2 * size.toNat else count

/-- What a read leaves in the half-word `i` of its slot, where `old` has been before. -/
def slotContent (adcMv : UInt16 → UInt16) (size : UInt8) (samples : List UInt16)
    (old : Nat → UInt16) (i : Nat) : UInt16 :=
  let stored := fun i => if i < samples.length then samples.getD i 0 else old i
  if size.toNat ≤ 128 then if i % 2 = 0 then adcResult adcMv (stored (i / 2)) else 0
  else stored i

/-- It depends on what has been in the slot only. -/
theorem slotContent_congr {adcMv : UInt16 → UInt16} {size : UInt8} {samples : List UInt16}
    {old old' : Nat → UInt16} {i : Nat} (hi : i < 2 * size.toNat)
    (h : ∀ k < 2 * size.toNat, old k = old' k) :
    slotContent adcMv size samples old i = slotContent adcMv size samples old' i := by
  unfold slotContent
  simp only [h i hi, h (i / 2) (by omega)]

section Finish

variable (adcMv : UInt16 → UInt16) {size : UInt8} (hsize : size ≠ 0) (data : UInt32)
  {samples : List UInt16} (hlen : samples.length ≤ size.toNat) (m : AdcMem)

include hsize in
theorem size_pos : 1 ≤ size.toNat ∧ (size - 1).toNat = size.toNat - 1 := by
  have hne : size.toNat ≠ 0 := fun h => hsize (UInt8.toNat_inj.mp h)
  have hpos : (1 : UInt8) ≤ size := UInt8.le_iff_toNat_le.mpr (Nat.one_le_iff_ne_zero.mpr hne)
  exact ⟨Nat.one_le_iff_ne_zero.mpr hne, UInt8.toNat_sub_of_le _ _ hpos⟩

include hsize in
/-- A read, by the size of the buffer. -/
theorem readFinish_eq : readFinish adcMv size data samples m =
    if size.toNat ≤ 128 then
      { mem := adcConvertLoop adcMv data data size.toNat (storeSamples data 0 samples m.mem)
        writes := m.writes ++ halfwords data samples.length ++ halfwords data (2 * size.toNat) }
    else
      { mem := storeSamples data 0 samples m.mem
        writes := m.writes ++ halfwords data samples.length } := by
  obtain ⟨hpos, hlast⟩ := size_pos hsize
  have hiff : size - 1 < 128 ↔ size.toNat ≤ 128 := by
    rw [UInt8.lt_iff_toNat_lt, hlast]
    show size.toNat - 1 < 128 ↔ _
    omega
  unfold readFinish
  simp only [hiff, hlast, Nat.sub_add_cancel hpos]

include hsize hlen in
theorem readFinish_writes {a : UInt32} : a ∈ (readFinish adcMv size data samples m).writes ↔
    a ∈ m.writes ∨ ∃ i < touched size samples.length, a = halfword data i := by
  rw [readFinish_eq adcMv hsize]
  unfold touched
  split
  · simp only [List.mem_append, mem_halfwords, or_assoc]
    refine or_congr_right ⟨?_, .inr⟩
    rintro (⟨i, hi, rfl⟩ | h)
    · exact ⟨i, by omega, rfl⟩
    · exact h
  · simp only [List.mem_append, mem_halfwords]

include hsize hlen in
/-- A read writes to its own slot only. -/
theorem readFinish_other {a : UInt32} (h : ∀ k < 2 * size.toNat, a ≠ halfword data k) :
    (readFinish adcMv size data samples m).mem a = m.mem a := by
  have hstore : storeSamples data 0 samples m.mem a = m.mem a :=
    storeSamples_other data samples 0 m.mem fun k _ hk => h k (by omega)
  rw [readFinish_eq adcMv hsize]
  split
  · show adcConvertLoop adcMv data data size.toNat _ a = _
    rw [adcConvertLoop_other adcMv data data _ h, hstore]
  · exact hstore

include hsize hlen in
theorem readFinish_content {i : Nat} (hi : i < 2 * size.toNat) :
    (readFinish adcMv size data samples m).mem (halfword data i) =
      slotContent adcMv size samples (fun i => m.mem (halfword data i)) i := by
  have hlt := size.toNat_lt
  have hstore : ∀ k < 2 ^ 31, storeSamples data 0 samples m.mem (halfword data k) =
      if k < samples.length then samples.getD k 0 else m.mem (halfword data k) := by
    intro k hk
    rw [storeSamples_get data hk samples 0 m.mem (by omega)]
    simp only [Nat.zero_le, true_and, Nat.zero_add, Nat.sub_zero]
  unfold slotContent
  rw [readFinish_eq adcMv hsize]
  by_cases hle : size.toNat ≤ 128
  · obtain ⟨hlow, hhigh⟩ := adcConvertLoop_holds adcMv data (n := size.toNat)
      (storeSamples data 0 samples m.mem) (by omega) (k := i / 2) (by omega)
    simp only [if_pos hle]
    rw [hstore _ (by omega)] at hlow
    by_cases heven : i % 2 = 0
    · rw [if_pos heven]
      rwa [show 2 * (i / 2) = i by omega] at hlow
    · rw [if_neg heven]
      rwa [show 2 * (i / 2) + 1 = i by omega] at hhigh
  · simp only [if_neg hle]
    exact hstore i (by omega)

end Finish

/-! ## All slots -/

section Slots

variable (adcMv : UInt16 → UInt16) (size : UInt8) (buff : UInt32) (reads : Nat → ChannelRead)

/-- The read of a channel into a slot succeeds, as far as it can tell. -/
def ReadsOk (j c : Nat) : Prop := (reads c).opened = true ∧ slotData buff size j ≠ 0

instance (j c : Nat) : Decidable (ReadsOk size buff reads j c) :=
  inferInstanceAs (Decidable (_ ∧ _))

/-- Memory behind the read of a channel into a slot. -/
def slotMem (j c : Nat) (m : AdcMem) : AdcMem :=
  if ReadsOk size buff reads j c then
    readFinish adcMv size (slotData buff size j) (reads c).samples m
  else m

/-- Memory behind the reads of channels into the slots from `j` on. -/
def bulkMem : List Nat → Nat → AdcMem → AdcMem
  | [], _, m => m
  | c :: cs, j, m => bulkMem cs (j + 1) (slotMem adcMv size buff reads j c m)

/-- The last of the reads succeeds, or there is none and `p` holds. -/
def LastOk (cs : List Nat) (j : Nat) (p : Prop) : Prop :=
  match cs.getLast? with
  | none => p
  | some c => ReadsOk size buff reads (j + cs.length - 1) c

/-- What the driver may do: it opens no device for an empty buffer, stores no more samples than
    the buffer holds, and all of them if it is done. -/
structure Possible (size : UInt8) (r : ChannelRead) : Prop where
  opened : r.opened = true → size ≠ 0
  count : r.samples.length ≤ size.toNat
  allDone : r.opened = true → r.allDone = true → r.samples.length = size.toNat

variable {adcMv size buff reads}

theorem lastOk_cons (c : Nat) (cs : List Nat) (j : Nat) (p : Prop) :
    LastOk size buff reads (c :: cs) j p ↔
      LastOk size buff reads cs (j + 1) (ReadsOk size buff reads j c) := by
  cases cs with
  | nil => rfl
  | cons c' cs =>
    unfold LastOk
    rw [List.getLast?_cons_cons]
    cases hlast : (c' :: cs).getLast? with
    | none => exact absurd (List.getLast?_eq_none_iff.mp hlast) (List.cons_ne_nil c' cs)
    | some last =>
      simp only [List.length_cons]
      rw [show j + (cs.length + 1 + 1) - 1 = j + 1 + (cs.length + 1) - 1 by omega]

section Memory

variable (hposs : ∀ c, Possible size (reads c))

include hposs

theorem slotMem_writes {j c : Nat} {m : AdcMem} {a : UInt32} :
    a ∈ (slotMem adcMv size buff reads j c m).writes ↔ a ∈ m.writes ∨
      ReadsOk size buff reads j c ∧ ∃ i < touched size (reads c).samples.length,
        a = halfword buff (2 * (j * size.toNat) + i) := by
  unfold slotMem
  by_cases hok : ReadsOk size buff reads j c
  · rw [if_pos hok, readFinish_writes adcMv ((hposs c).opened hok.1) _ (hposs c).count]
    simp only [halfword_slotData]
    exact or_congr_right (and_iff_right hok).symm
  · rw [if_neg hok]
    exact ⟨.inl, fun h => h.resolve_right fun h => hok h.1⟩

/-- A read writes to its own slot only. -/
theorem slotMem_outside {j c k : Nat} (m : AdcMem) (hk : k < 2 ^ 31)
    (hj : 2 * ((j + 1) * size.toNat) ≤ 2 ^ 31)
    (h : k < 2 * (j * size.toNat) ∨ 2 * ((j + 1) * size.toNat) ≤ k) :
    (slotMem adcMv size buff reads j c m).mem (halfword buff k) = m.mem (halfword buff k) := by
  unfold slotMem
  by_cases hok : ReadsOk size buff reads j c
  · rw [if_pos hok]
    refine readFinish_other adcMv ((hposs c).opened hok.1) _ (hposs c).count m fun i hi => ?_
    rw [Nat.add_mul, Nat.one_mul] at hj h
    rw [halfword_slotData]
    exact halfword_ne hk (by omega) (by omega)
  · rw [if_neg hok]

theorem slotMem_content {j c i : Nat} (m : AdcMem) (hi : i < 2 * size.toNat) :
    (slotMem adcMv size buff reads j c m).mem (halfword buff (2 * (j * size.toNat) + i)) =
      if ReadsOk size buff reads j c then slotContent adcMv size (reads c).samples
        (fun i => m.mem (halfword buff (2 * (j * size.toNat) + i))) i
      else m.mem (halfword buff (2 * (j * size.toNat) + i)) := by
  unfold slotMem
  by_cases hok : ReadsOk size buff reads j c
  · have hcontent := readFinish_content adcMv ((hposs c).opened hok.1) (slotData buff size j)
      (hposs c).count m hi
    simp only [halfword_slotData] at hcontent
    rw [if_pos hok, if_pos hok, hcontent]
  · rw [if_neg hok, if_neg hok]

theorem bulkMem_writes {a : UInt32} (cs : List Nat) : ∀ (j : Nat) (m : AdcMem),
    a ∈ (bulkMem adcMv size buff reads cs j m).writes ↔ a ∈ m.writes ∨
      ∃ n c, cs[n]? = some c ∧ ReadsOk size buff reads (j + n) c ∧
        ∃ i < touched size (reads c).samples.length,
          a = halfword buff (2 * ((j + n) * size.toNat) + i) := by
  induction cs with
  | nil =>
    intro j m
    exact ⟨.inl, fun h => h.resolve_right fun ⟨n, c, hc, _⟩ => nomatch hc⟩
  | cons c cs ih =>
    intro j m
    rw [bulkMem, ih, slotMem_writes hposs, or_assoc]
    refine or_congr_right ⟨?_, ?_⟩
    · rintro (⟨hok, h⟩ | ⟨n, c', hc', hok, h⟩)
      · exact ⟨0, c, rfl, hok, h⟩
      · rw [Nat.add_right_comm, Nat.add_assoc] at hok h
        exact ⟨n + 1, c', hc', hok, h⟩
    · rintro ⟨n, c', hc', hok, h⟩
      cases n with
      | zero =>
        cases Option.some.inj hc'
        exact .inl ⟨hok, h⟩
      | succ n =>
        rw [show j + (n + 1) = j + 1 + n by omega] at hok h
        exact .inr ⟨n, c', hc', hok, h⟩

/-- Behind and before the slots of the channels nothing changes. -/
theorem bulkMem_outside {k : Nat} (hk : k < 2 ^ 31) (cs : List Nat) : ∀ (j : Nat) (m : AdcMem),
    2 * ((j + cs.length) * size.toNat) ≤ 2 ^ 31 →
    (k < 2 * (j * size.toNat) ∨ 2 * ((j + cs.length) * size.toNat) ≤ k) →
      (bulkMem adcMv size buff reads cs j m).mem (halfword buff k) = m.mem (halfword buff k) := by
  induction cs with
  | nil => exact fun _ _ _ _ => rfl
  | cons c cs ih =>
    intro j m hj h
    rw [List.length_cons] at hj h
    have hnext : (j + 1) * size.toNat ≤ (j + (cs.length + 1)) * size.toNat :=
      Nat.mul_le_mul_right _ (by omega)
    have hprev : j * size.toNat ≤ (j + 1) * size.toNat := Nat.mul_le_mul_right _ (by omega)
    have hsame : j + 1 + cs.length = j + (cs.length + 1) := by omega
    rw [bulkMem, ih (j + 1) _ (by rw [hsame]; exact hj) (by rw [hsame]; omega),
      slotMem_outside hposs m hk (by omega) (by omega)]

/-- A slot has what the read of its channel leaves in it. -/
theorem bulkMem_content {c i : Nat} (hi : i < 2 * size.toNat) (cs : List Nat) :
    ∀ (j n : Nat) (m : AdcMem), 2 * ((j + cs.length) * size.toNat) ≤ 2 ^ 31 → cs[n]? = some c →
      (bulkMem adcMv size buff reads cs j m).mem (halfword buff (2 * ((j + n) * size.toNat) + i)) =
        if ReadsOk size buff reads (j + n) c then slotContent adcMv size (reads c).samples
          (fun i => m.mem (halfword buff (2 * ((j + n) * size.toNat) + i))) i
        else m.mem (halfword buff (2 * ((j + n) * size.toNat) + i)) := by
  induction cs with
  | nil => exact fun _ _ _ _ hc => nomatch hc
  | cons c' cs ih =>
    intro j n m hj hc
    rw [List.length_cons] at hj
    have hnext : (j + 1) * size.toNat ≤ (j + (cs.length + 1)) * size.toNat :=
      Nat.mul_le_mul_right _ (by omega)
    have hsplit : (j + 1) * size.toNat = j * size.toNat + size.toNat := Nat.succ_mul _ _
    rw [bulkMem]
    cases n with
    | zero =>
      obtain rfl : c' = c := Option.some.inj hc
      simp only [Nat.add_zero]
      rw [bulkMem_outside hposs (by omega) cs _ _
        (by rw [show j + 1 + cs.length = j + (cs.length + 1) by omega]; exact hj)
        (.inl (by omega)), slotMem_content hposs m hi]
    | succ n =>
      have hc : cs[n]? = some c := hc
      have hn : n < cs.length := (List.getElem?_eq_some_iff.mp hc).1
      have hup : (j + 1 + n + 1) * size.toNat ≤ (j + (cs.length + 1)) * size.toNat :=
        Nat.mul_le_mul_right _ (by omega)
      have hlow : (j + 1) * size.toNat ≤ (j + 1 + n) * size.toNat :=
        Nat.mul_le_mul_right _ (by omega)
      rw [Nat.succ_mul] at hup
      have hold : ∀ i < 2 * size.toNat, (slotMem adcMv size buff reads j c' m).mem
          (halfword buff (2 * ((j + 1 + n) * size.toNat) + i)) =
          m.mem (halfword buff (2 * ((j + 1 + n) * size.toNat) + i)) := by
        intro i hi
        exact slotMem_outside hposs m (by omega) (by omega) (.inr (by omega))
      rw [show j + (n + 1) = j + 1 + n by omega, ih (j + 1) n _
        (by rw [show j + 1 + cs.length = j + (cs.length + 1) by omega]; exact hj) hc, hold i hi]
      exact if_congr Iff.rfl (slotContent_congr hi hold) rfl

end Memory

/-! ## The loop over the channels -/

/-- The read of a channel that is initialised. -/
theorem adcReadSingleData_spec (r : ChannelRead) {s : AdcState} {i : Nat} (hi : i < 6)
    (hmarked : s.gAdcInit.entry i ≠ 0) (data : UInt32) (m : AdcMem) :
    let out := adcReadSingleData adcMv r s 0 (UInt8.ofNat i) data m
    out.2.1.gAdcInit.entry = s.gAdcInit.entry ∧
      out.2.1.adcDesc.dataBuffSize = s.adcDesc.dataBuffSize ∧
      (out.1 = oprtOk ↔ r.opened = true ∧ data ≠ 0) ∧
      out.2.2 = if r.opened = true ∧ data ≠ 0 then
        readFinish adcMv s.adcDesc.dataBuffSize data r.samples m else m := by
  have hid : (UInt8.ofNat i).toNat = i := UInt8.toNat_ofNat_of_lt' (show i < 2 ^ 8 by omega)
  have hport : ¬(UInt8.toNat 0 > adcDevNum - 1 ∨ i > adcDevChannelSum) := by
    unfold adcDevNum adcDevChannelSum
    simp
    omega
  have hmalloc : oprtMallocFailed ≠ oprtOk := by decide
  have hcom : oprtComError ≠ oprtOk := by decide
  unfold adcReadSingleData tklAdcReadSingleChannel
  simp only [hid, if_neg hport, Table.read_fst, if_neg hmarked]
  by_cases hdata : data = 0
  · have hnot : ¬(r.opened = true ∧ data ≠ 0) := fun h => h.2 hdata
    simp only [if_pos hdata, if_neg hmalloc, if_neg hnot]
    exact ⟨rfl, trivial, iff_of_false hmalloc hnot, trivial⟩
  · by_cases hopen : r.opened = true
    · have hio : r.io.opened = true := hopen
      simp only [if_neg hdata, if_pos hio, if_pos (And.intro hopen hdata), if_true]
      exact ⟨rfl, rfl, iff_of_true trivial ⟨hopen, hdata⟩, rfl⟩
    · have hnot : ¬(r.opened = true ∧ data ≠ 0) := fun h => hopen h.1
      have hio : ¬r.io.opened = true := hopen
      simp only [if_neg hdata, if_neg hio, if_neg hcom, if_neg hnot]
      exact ⟨rfl, rfl, iff_of_false hcom hnot, trivial⟩

/-- One channel: a marked one has the next slot. -/
theorem bulkReadChannel_step (b : BulkLoop) {i : Nat} (hi : i < 6)
    (hsize : b.s.adcDesc.dataBuffSize = size) :
    let b' := bulkReadChannel adcMv reads 0 buff b i
    b'.s.gAdcInit.entry = b.s.gAdcInit.entry ∧ b'.s.adcDesc.dataBuffSize = size ∧
      if b.s.gAdcInit.entry i = 0 then b'.j = b.j ∧ b'.m = b.m ∧ b'.ret = b.ret
      else b'.j = b.j + 1 ∧ b'.m = slotMem adcMv size buff reads b.j i b.m ∧
        (b'.ret = oprtOk ↔ ReadsOk size buff reads b.j i) := by
  subst hsize
  unfold bulkReadChannel
  by_cases hmarked : b.s.gAdcInit.entry i = 0
  · have hskip : ¬(b.s.gAdcInit.read i).1 ≠ 0 := not_not.mpr hmarked
    simp only [if_neg hskip, if_pos hmarked]
    exact ⟨rfl, trivial, trivial, trivial, trivial⟩
  · have hread : (b.s.gAdcInit.read i).1 ≠ 0 := hmarked
    obtain ⟨hentry, hsize, hret, hmem⟩ := @adcReadSingleData_spec adcMv (reads i)
      { b.s with gAdcInit := (b.s.gAdcInit.read i).2 } i hi hmarked
      (slotData buff b.s.adcDesc.dataBuffSize b.j) b.m
    simp only [if_pos hread, if_neg hmarked]
    exact ⟨hentry, hsize, trivial, hmem, hret⟩

/-- The loop reads the marked channels, slot after slot, and the last of them decides on the
    return value. -/
theorem bulkRead_loop (is : List Nat) : ∀ b : BulkLoop, (∀ i ∈ is, i < 6) →
    b.s.adcDesc.dataBuffSize = size →
    let b' := is.foldl (bulkReadChannel adcMv reads 0 buff) b
    let cs := is.filter fun i => b.s.gAdcInit.entry i ≠ 0
    b'.m = bulkMem adcMv size buff reads cs b.j b.m ∧
      (b'.ret = oprtOk ↔ LastOk size buff reads cs b.j (b.ret = oprtOk)) := by
  induction is with
  | nil => exact fun b _ _ => ⟨rfl, Iff.rfl⟩
  | cons i is ih =>
    intro b hlt hsize
    obtain ⟨hentry, hsize', hstep⟩ :=
      @bulkReadChannel_step adcMv size buff reads b i (hlt i List.mem_cons_self) hsize
    obtain ⟨hmem, hret⟩ := ih (bulkReadChannel adcMv reads 0 buff b i)
      (fun i hi => hlt i (List.mem_cons_of_mem _ hi)) hsize'
    simp only [hentry] at hmem hret
    simp only [List.foldl_cons, hmem, hret]
    by_cases hmarked : b.s.gAdcInit.entry i = 0
    · rw [if_pos hmarked] at hstep
      obtain ⟨hj, hm, hr⟩ := hstep
      rw [List.filter_cons_of_neg (by simpa using hmarked), hj, hm, hr]
      exact ⟨rfl, Iff.rfl⟩
    · rw [if_neg hmarked] at hstep
      obtain ⟨hj, hm, hr⟩ := hstep
      rw [List.filter_cons_of_pos (by simpa using hmarked), hj, hm, lastOk_cons, hr]
      exact ⟨rfl, Iff.rfl⟩

end Slots

end ArduinoT2.Driver
