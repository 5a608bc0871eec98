import ArduinoT2.Driver.AdcSlots

/-
  The bulk reads of the ADC (`tkl_adc_read_data` and `tkl_adc_read_voltage` of tkl_adc.c) behind
  `tkl_adc_init`: where they write, what they return and what is in the buffer then.

  The check of the length sets `ret` and goes on, and every channel overwrites it, so the last
  marked channel decides on the return value. The channels are read in ascending order, not in
  that of `ch_list`, and those behind the list are read too. A wait that is given up, a count of
  more than 128 and a count that `data_buff_size` cuts are not noticed. `adc_bulk_iff` says for
  which configurations, lengths and answers of the driver none of this matters.
-/

namespace ArduinoT2.Driver

open ArduinoT2.Adapter ArduinoT2.Vendor

/-! ## The driver and the configuration -/

/-- What the driver does with the channels, for a buffer of this size: whether an open succeeds,
    whether the wait ends with `all_done`, and how many samples are stored by then. It opens
    nothing for an empty buffer, stores no more than the buffer holds, and all if it is done. -/
structure Answers (size : UInt8) where
  opened : Nat → Bool
  allDone : Nat → Bool
  count : Nat → Nat
  size_ne : ∀ c, opened c = true → size ≠ 0
  count_le : ∀ c, count c ≤ size.toNat
  count_done : ∀ c, opened c = true → allDone c = true → count c = size.toNat

/-- The reads, where `levels c i` is the sample `i` of the channel `c`. -/
def Answers.reads {size : UInt8} (ans : Answers size) (levels : Nat → Nat → UInt16) (c : Nat) :
    ChannelRead where
  opened := ans.opened c
  allDone := ans.allDone c
  samples := (List.range (ans.count c)).map (levels c)

/-- A channel is opened with the address of a slot. -/
def Answers.OpensAt {size : UInt8} (ans : Answers size) (buff : UInt32) (j c : Nat) : Prop :=
  ans.opened c = true ∧ slotData buff size j ≠ 0

/-- The last channel is opened. If there is none, the check of the length decides. -/
def Answers.LastOpens {size : UInt8} (ans : Answers size) (buff : UInt32) (cs : List Nat)
    (fits : Prop) : Prop :=
  match cs.getLast? with
  | none => fits
  | some c => ans.OpensAt buff (cs.length - 1) c

/-- How many half-words the read of a channel writes. -/
def Answers.writes {size : UInt8} (ans : Answers size) (c : Nat) : Nat := touched size (ans.count c)

/-- `adc_desc.data_buff_size`. -/
def bufSize (cfg : AdcBaseCfg) : UInt8 := cfg.convCnt.toUInt8

/-- `ch_list[i]`. -/
def chAt (cfg : AdcBaseCfg) (i : Nat) : Nat :=
  match cfg.chList with
  | none => 0
  | some chList => (chList i).toNat

/-- The channels among the six entries that `tkl_adc_init` reads, in ascending order. -/
def marked (cfg : AdcBaseCfg) : List Nat :=
  (List.range 6).filter fun c => (List.range 6).any fun i => chAt cfg i == c

/-! ## What a bulk read must do -/

/-- What a bulk read into `len` words at `buff` must do: it writes to the buffer only, it fails
    without a write if the buffer is short, and if it succeeds all channels have been opened and
    were done, and the results of the k-th are those from `k * conv_cnt` on. -/
structure BulkReadOk (cfg : AdcBaseCfg) (len : UInt16) (buff : UInt32)
    (ans : Answers (bufSize cfg)) (result : Nat → Nat → UInt32)
    (out : OperateRet × AdcState × AdcMem) : Prop where
  inBuffer : ∀ a ∈ out.2.2.writes, a ∈ halfwords buff (2 * len.toNat)
  short : cfg.chNums.toNat * cfg.convCnt.toNat > len.toNat →
    out.1 ≠ oprtOk ∧ out.2.2.writes = []
  ok : out.1 = oprtOk → ∀ k < cfg.chNums.toNat,
    ans.opened (chAt cfg k) = true ∧ ans.allDone (chAt cfg k) = true ∧
      ∀ i < cfg.convCnt.toNat,
        wordAt out.2.2.mem buff (k * cfg.convCnt.toNat + i) = result (chAt cfg k) i

/-- Both bulk reads, from the state `s`, for every port and whatever is measured and in memory. -/
def BulkOk (s : AdcState) (cfg : AdcBaseCfg) (len : UInt16) (buff : UInt32)
    (ans : Answers (bufSize cfg)) : Prop :=
  ∀ (adcMv : UInt16 → UInt16) (levels : Nat → Nat → UInt16) (mem : UInt32 → UInt16)
    (portNum : UInt8),
    BulkReadOk cfg len buff ans (fun c i => (adcResult adcMv (levels c i)).toUInt32)
        (tklAdcReadDataMem adcMv (ans.reads levels) s portNum buff len ⟨mem, []⟩) ∧
      BulkReadOk cfg len buff ans (fun c i => voltageOf (adcResult adcMv (levels c i)).toUInt32)
        (tklAdcReadVoltage adcMv (ans.reads levels) s portNum buff len ⟨mem, []⟩)

/-- The reads that do what they must. A short buffer: the last channel is not opened, and no
    channel that is opened writes anything. Else the writes of the channels that are opened end
    within the buffer, and if the last channel is opened, `ch_list` has the marked channels in
    their order, all of them are opened and done, and the count is at most 128. -/
def BulkMeets (cfg : AdcBaseCfg) (len : UInt16) (buff : UInt32) (ans : Answers (bufSize cfg)) :
    Prop :=
  let size := (bufSize cfg).toNat
  let returnsOk := ans.LastOpens buff (marked cfg) (cfg.chNums.toNat * size ≤ len.toNat)
  if cfg.chNums.toNat * cfg.convCnt.toNat > len.toNat then
    ¬returnsOk ∧ ∀ j c, (marked cfg)[j]? = some c → ans.OpensAt buff j c → ans.writes c = 0
  else
    (∀ j c, (marked cfg)[j]? = some c → ans.OpensAt buff j c →
      ans.writes c = 0 ∨ 2 * (j * size) + ans.writes c ≤ 2 * len.toNat) ∧
    (returnsOk → ∀ k < cfg.chNums.toNat, (marked cfg)[k]? = some (chAt cfg k) ∧
      ans.OpensAt buff k (chAt cfg k) ∧ ans.allDone (chAt cfg k) = true ∧ cfg.convCnt ≤ 128)

/-! ## The state behind the init -/

theorem Answers.possible {size : UInt8} (ans : Answers size) (levels : Nat → Nat → UInt16)
    (c : Nat) : Possible size (ans.reads levels c) := by
  have hlen : (ans.reads levels c).samples.length = ans.count c := by
    unfold Answers.reads
    rw [List.length_map, List.length_range]
  exact ⟨ans.size_ne c, hlen ▸ ans.count_le c, fun ho hd => hlen ▸ ans.count_done c ho hd⟩

theorem lastOk_iff {size : UInt8} (ans : Answers size) (levels : Nat → Nat → UInt16)
    (buff : UInt32) (cs : List Nat) (p : Prop) :
    LastOk size buff (ans.reads levels) cs 0 p ↔ ans.LastOpens buff cs p := by
  unfold LastOk Answers.LastOpens
  rw [Nat.zero_add]
  cases cs.getLast? with
  | none => exact Iff.rfl
  | some c => exact Iff.rfl

section Calls

variable {a : AdcState} {cfg : AdcBaseCfg} (hinit : (tklAdcInit a 0 cfg).1 = oprtOk)

include hinit

theorem init_adcChNums : (tklAdcInit a 0 cfg).2.2.adcChNums = cfg.chNums := by
  unfold tklAdcInit at hinit ⊢
  split at hinit
  · exact absurd hinit invalidParm_ne_ok
  rename_i hpass
  rw [if_neg hpass]
  split at hinit
  · exact absurd hinit invalidParm_ne_ok
  split at hinit
  · exact absurd hinit invalidParm_ne_ok
  · simp only

/-- The marked channels are those among the six entries. -/
theorem init_marked : ((List.range 6).filter fun c =>
    (tklAdcInit a 0 cfg).2.2.gAdcInit.entry c ≠ 0) = marked cfg := by
  have hpass : ¬initRefused 0 cfg := by
    intro hrefused
    rw [init_refused hrefused] at hinit
    exact absurd hinit invalidParm_ne_ok
  cases hmode : adcConfigMode cfg.mode with
  | none =>
    rw [init_unsupported hpass hmode] at hinit
    exact absurd hinit invalidParm_ne_ok
  | some mode =>
    obtain ⟨chList, s', hlist, hret, htable⟩ := init_accepted (s := a) hpass hmode
    refine List.filter_congr fun c hc => Bool.eq_iff_iff.mpr ?_
    have hc : c < 6 := List.mem_range.mp hc
    have hone : (1 : UInt8) ≠ 0 := by decide
    rw [decide_eq_true_iff, hret, htable, initLoop_entry chList _ 6 hc,
      show (a.gAdcInit.fill 0).entry c = 0 from if_pos hc, ite_ne_right_iff, List.any_eq_true]
    unfold chAt
    simp only [hlist, List.mem_range, beq_iff_eq]
    exact and_iff_left hone

/-- `tkl_adc_read_data` as the reads of the marked channels. -/
theorem readData_spec (adcMv : UInt16 → UInt16) (ans : Answers (bufSize cfg))
    (levels : Nat → Nat → UInt16) (buff : UInt32) (len : UInt16) (m : AdcMem) :
    let out := tklAdcReadDataMem adcMv (ans.reads levels) (tklAdcInit a 0 cfg).2.2 0 buff len m
    out.2.2 = bulkMem adcMv (bufSize cfg) buff (ans.reads levels) (marked cfg) 0 m ∧
      (out.1 = oprtOk ↔ ans.LastOpens buff (marked cfg)
        (cfg.chNums.toNat * (bufSize cfg).toNat ≤ len.toNat)) := by
  have hport : ¬(0 : UInt8).toNat > adcDevNum - 1 := by decide
  have hcom : oprtComError ≠ oprtOk := by decide
  obtain ⟨hmem, hret⟩ := @bulkRead_loop adcMv _ buff (ans.reads levels) (List.range 6)
    ⟨if (tklAdcInit a 0 cfg).2.2.adcChNums.toNat *
      (tklAdcInit a 0 cfg).2.2.adcDesc.dataBuffSize.toNat > len.toNat then oprtComError else oprtOk,
      0, (tklAdcInit a 0 cfg).2.2, m⟩ (fun i => List.mem_range.mp) (init_dataBuffSize hinit)
  have hcheck : ∀ p : Prop, [Decidable p] → ((if p then oprtComError else oprtOk) = oprtOk ↔ ¬p) :=
    fun p _ => by rw [ite_eq_right_iff]; exact imp_congr_right fun _ => iff_of_false hcom id
  simp only [init_marked hinit, init_adcChNums hinit, init_dataBuffSize hinit, hcheck,
    Nat.not_lt] at hmem hret
  unfold tklAdcReadDataMem
  rw [if_neg hport]
  simp only [init_adcChNums hinit, init_dataBuffSize hinit]
  exact ⟨hmem, hret.trans (lastOk_iff ans levels buff (marked cfg) _)⟩

end Calls

/-! ## Words -/

theorem wordAt_toNat (mem : UInt32 → UInt16) (buff : UInt32) (i : Nat) :
    (wordAt mem buff i).toNat =
      (mem (halfword buff (2 * i))).toNat + 65536 * (mem (halfword buff (2 * i + 1))).toNat := by
  have hlow := (mem (halfword buff (2 * i))).toNat_lt
  have hhigh := (mem (halfword buff (2 * i + 1))).toNat_lt
  exact UInt32.toNat_ofNat_of_lt' (show _ < 2 ^ 32 by omega)

/-- A word is a result if its upper half-word is 0. -/
theorem wordAt_eq_iff {mem : UInt32 → UInt16} {buff : UInt32} {i : Nat} {v : UInt16} :
    wordAt mem buff i = v.toUInt32 ↔
      mem (halfword buff (2 * i)) = v ∧ mem (halfword buff (2 * i + 1)) = 0 := by
  have hlow := (mem (halfword buff (2 * i))).toNat_lt
  have hv := v.toNat_lt
  rw [← UInt32.toNat_inj, ← UInt16.toNat_inj, ← UInt16.toNat_inj, wordAt_toNat,
    UInt16.toNat_toUInt32, show (0 : UInt16).toNat = 0 from rfl]
  omega

theorem wordAt_congr {mem mem' : UInt32 → UInt16} {buff : UInt32} {i : Nat}
    (hlow : mem (halfword buff (2 * i)) = mem' (halfword buff (2 * i)))
    (hhigh : mem (halfword buff (2 * i + 1)) = mem' (halfword buff (2 * i + 1))) :
    wordAt mem buff i = wordAt mem' buff i := by
  unfold wordAt
  rw [hlow, hhigh]

theorem wordAt_writeWord (mem : UInt32 → UInt16) (buff : UInt32) {i j : Nat} (hi : i < 2 ^ 16)
    (hj : j < 2 ^ 16) (v : UInt32) :
    wordAt (writeWord mem buff i v) buff j = if j = i then v else wordAt mem buff j := by
  by_cases hij : j = i
  · subst hij
    have hv := v.toNat_lt
    rw [if_pos rfl, ← UInt32.toNat_inj, wordAt_toNat]
    unfold writeWord
    rw [Function.update_of_ne (halfword_ne (by omega) (by omega) (by omega)),
      Function.update_self, Function.update_self, UInt16.toNat_ofNat', UInt16.toNat_ofNat']
    omega
  · rw [if_neg hij]
    have hother : ∀ k < 2 * 2 ^ 16, k ≠ 2 * i → k ≠ 2 * i + 1 →
        writeWord mem buff i v (halfword buff k) = mem (halfword buff k) := by
      intro k hk hlow hhigh
      unfold writeWord
      rw [Function.update_of_ne (halfword_ne (by omega) (by omega) hhigh),
        Function.update_of_ne (halfword_ne (by omega) (by omega) hlow)]
    exact wordAt_congr (hother _ (by omega) (by omega) (by omega))
      (hother _ (by omega) (by omega) (by omega))

/-- The loop of `tkl_adc_read_voltage` converts the elements that it has passed. -/
theorem voltageLoop_get (mem : UInt32 → UInt16) (buff : UInt32) {n : Nat} (hn : n ≤ 2 ^ 16)
    {i : Nat} (hi : i < 2 ^ 16) : wordAt (voltageLoop buff n mem) buff i =
      if i < n then voltageOf (wordAt mem buff i) else wordAt mem buff i := by
  induction n with
  | zero => rw [if_neg (Nat.not_lt_zero i)]; rfl
  | succ n ih =>
    have hstep : voltageLoop buff (n + 1) mem = writeWord (voltageLoop buff n mem) buff n
        (voltageOf (wordAt (voltageLoop buff n mem) buff n)) := by
      unfold voltageLoop
      rw [List.range_succ, List.foldl_concat]
    have ih := ih (by omega)
    rw [hstep, wordAt_writeWord _ buff (by omega) hi]
    by_cases hin : i = n
    · subst hin
      rw [if_pos rfl, ih, if_neg (Nat.lt_irrefl i), if_pos i.lt_succ_self]
    · rw [if_neg hin, ih]
      exact if_congr (by omega) rfl rfl

/-- What holds of `tkl_adc_read_data` holds of `tkl_adc_read_voltage`. -/
theorem readVoltage_ok {adcMv : UInt16 → UInt16} {cfg : AdcBaseCfg} {len : UInt16} {buff : UInt32}
    {ans : Answers (bufSize cfg)} {result : Nat → Nat → UInt32} {reads : Nat → ChannelRead}
    {s : AdcState} {portNum : UInt8} {m : AdcMem}
    (h : BulkReadOk cfg len buff ans result (tklAdcReadDataMem adcMv reads s portNum buff len m)) :
    BulkReadOk cfg len buff ans (fun c i => voltageOf (result c i))
      (tklAdcReadVoltage adcMv reads s portNum buff len m) := by
  have hlen := len.toNat_lt
  unfold tklAdcReadVoltage
  generalize tklAdcReadDataMem adcMv reads s portNum buff len m = out at h
  obtain ⟨ret, s', m'⟩ := out
  simp only
  by_cases hret : ret = oprtOk
  · rw [if_pos hret]
    refine ⟨fun a ha => ?_, fun hshort => absurd hret (h.short hshort).1, fun _ k hk => ?_⟩
    · rcases List.mem_append.mp ha with ha | ha
      · exact h.inBuffer a ha
      · exact ha
    · obtain ⟨hopen, hdone, hresult⟩ := h.ok hret k hk
      have hfits : cfg.chNums.toNat * cfg.convCnt.toNat ≤ len.toNat :=
        Nat.not_lt.mp fun hshort => (h.short hshort).1 hret
      have hslot : (k + 1) * cfg.convCnt.toNat ≤ cfg.chNums.toNat * cfg.convCnt.toNat :=
        Nat.mul_le_mul_right _ hk
      rw [Nat.succ_mul] at hslot
      refine ⟨hopen, hdone, fun i hi => ?_⟩
      show wordAt (voltageLoop buff len.toNat _) buff _ = _
      rw [voltageLoop_get _ buff (by omega) (by omega), if_pos (by omega), hresult i hi]
  · rw [if_neg hret]
    exact ⟨h.inBuffer, h.short, fun hok => absurd hok hret⟩

/-- Another port is refused. -/
theorem readData_port {adcMv : UInt16 → UInt16} {cfg : AdcBaseCfg} {len : UInt16} {buff : UInt32}
    {ans : Answers (bufSize cfg)} {result : Nat → Nat → UInt32} {reads : Nat → ChannelRead}
    {s : AdcState} {portNum : UInt8} {mem : UInt32 → UInt16} (hport : portNum.toNat > 0) :
    BulkReadOk cfg len buff ans result
      (tklAdcReadDataMem adcMv reads s portNum buff len ⟨mem, []⟩) := by
  have hrefused : tklAdcReadDataMem adcMv reads s portNum buff len ⟨mem, []⟩ =
      (oprtInvalidParm, s, ⟨mem, []⟩) := if_pos hport
  rw [hrefused]
  exact ⟨(fun a ha => nomatch ha), fun _ => ⟨invalidParm_ne_ok, rfl⟩,
    fun hok => absurd hok invalidParm_ne_ok⟩

/-! ## Both directions -/

theorem marked_length (cfg : AdcBaseCfg) : (marked cfg).length ≤ 6 := by
  unfold marked
  exact Nat.le_trans (List.length_filter_le _ _) (by simp)

/-- Where the reads of the marked channels write. -/
theorem marked_writes {cfg : AdcBaseCfg} (ans : Answers (bufSize cfg))
    (adcMv : UInt16 → UInt16) (levels : Nat → Nat → UInt16) (buff : UInt32)
    (mem : UInt32 → UInt16) (a : UInt32) :
    a ∈ (bulkMem adcMv (bufSize cfg) buff (ans.reads levels) (marked cfg) 0 ⟨mem, []⟩).writes ↔
      ∃ j c, (marked cfg)[j]? = some c ∧ ans.OpensAt buff j c ∧
        ∃ i < ans.writes c,
          a = halfword buff (2 * (j * (bufSize cfg).toNat) + i) := by
  have hlen : ∀ c, (ans.reads levels c).samples.length = ans.count c := by
    intro c
    unfold Answers.reads
    rw [List.length_map, List.length_range]
  rw [bulkMem_writes (ans.possible levels)]
  simp only [Nat.zero_add, hlen]
  exact or_iff_right List.not_mem_nil

/-- A result that is stored and converted. -/
theorem slotContent_result (adcMv : UInt16 → UInt16) {size : UInt8} (hsize : size.toNat ≤ 128)
    {samples : List UInt16} (old : Nat → UInt16) {i : Nat} (hi : i < samples.length) :
    slotContent adcMv size samples old (2 * i) = adcResult adcMv (samples.getD i 0) ∧
      slotContent adcMv size samples old (2 * i + 1) = 0 := by
  unfold slotContent
  simp only [if_pos hsize]
  constructor
  · rw [if_pos (by omega), show 2 * i / 2 = i by omega, if_pos hi]
  · rw [if_neg (by omega)]

theorem reads_getD {size : UInt8} (ans : Answers size) (levels : Nat → Nat → UInt16) (c : Nat)
    {i : Nat} (hi : i < ans.count c) : (ans.reads levels c).samples.getD i 0 = levels c i := by
  unfold Answers.reads
  simp [List.getD_eq_getElem?_getD, hi]

/-- Where all samples and all of memory are 1, so are the results. -/
theorem slotContent_one {size : UInt8} {samples : List UInt16} (hone : ∀ v ∈ samples, v = 1)
    {i : Nat} (hi : i % 2 = 0 ∨ 128 < size.toNat) :
    slotContent id size samples (fun _ => 1) i = 1 := by
  have hstored : ∀ k, (if k < samples.length then samples.getD k 0 else 1) = 1 := by
    intro k
    split
    · rename_i hk
      rw [List.getD_eq_getElem?_getD, List.getElem?_eq_getElem hk]
      exact hone _ (List.getElem_mem hk)
    · rfl
  unfold slotContent
  simp only [hstored]
  split
  · rw [if_pos (by omega)]
    rfl
  · rfl

theorem bulkMem_one {size : UInt8} (hsize : size ≠ 0) {buff : UInt32} {reads : Nat → ChannelRead}
    (hposs : ∀ c, Possible size (reads c)) {cs : List Nat} (hcs : cs.length ≤ 6) {h : Nat}
    (hh : h < 2 ^ 31) (hlow : h % 2 = 0 ∨ 128 < size.toNat)
    (hone : ∀ c, cs[h / (2 * size.toNat)]? = some c →
      ReadsOk size buff reads (h / (2 * size.toNat)) c → ∀ v ∈ (reads c).samples, v = 1) :
    (bulkMem id size buff reads cs 0 ⟨fun _ => 1, []⟩).mem (halfword buff h) = 1 := by
  have hlt := size.toNat_lt
  obtain ⟨hpos, -⟩ := size_pos hsize
  have hslots : (0 + cs.length) * size.toNat ≤ 6 * 256 := Nat.mul_le_mul (by omega) (by omega)
  -- the slot of the half-word, and its place there
  have hsplit := Nat.div_add_mod h (2 * size.toNat)
  have hplace := Nat.mod_lt h (show 0 < 2 * size.toNat by omega)
  have hparity : h % (2 * size.toNat) % 2 = h % 2 := Nat.mod_mul_right_mod h 2 size.toNat
  generalize h / (2 * size.toNat) = j at *
  rw [Nat.mul_assoc, Nat.mul_comm size.toNat j] at hsplit
  cases hc : cs[j]? with
  | none =>
    have hend : cs.length * size.toNat ≤ j * size.toNat :=
      Nat.mul_le_mul_right _ (List.getElem?_eq_none_iff.mp hc)
    rw [bulkMem_outside hposs hh cs 0 _ (by omega) (.inr (by rw [Nat.zero_add]; omega))]
  | some c =>
    have hcontent := @bulkMem_content id size buff reads hposs c _ hplace cs 0 j
      ⟨fun _ => 1, []⟩ (by omega) hc
    rw [Nat.zero_add, hsplit] at hcontent
    rw [hcontent]
    split
    · rename_i hok
      exact slotContent_one (hone c hc hok) (hparity ▸ hlow)
    · rfl

section Results

variable {cfg : AdcBaseCfg} {buff : UInt32} {ans : Answers (bufSize cfg)}

/-- Channels that write nothing. -/
theorem bulkMem_silent (hnone : ∀ j c, (marked cfg)[j]? = some c → ans.OpensAt buff j c →
      ans.writes c = 0) (adcMv : UInt16 → UInt16) (levels : Nat → Nat → UInt16)
    (mem : UInt32 → UInt16) :
    (bulkMem adcMv (bufSize cfg) buff (ans.reads levels) (marked cfg) 0 ⟨mem, []⟩).writes = [] := by
  refine List.eq_nil_iff_forall_not_mem.mpr fun a ha => ?_
  obtain ⟨j, c, hc, hopen, i, hi, -⟩ := (marked_writes ans adcMv levels buff mem a).mp ha
  rw [hnone j c hc hopen] at hi
  exact absurd hi (Nat.not_lt_zero i)

/-- An element of the slot of a channel that is done. -/
theorem bulkMem_result {k i : Nat} (hc : (marked cfg)[k]? = some (chAt cfg k))
    (hopen : ans.OpensAt buff k (chAt cfg k)) (hdone : ans.allDone (chAt cfg k) = true)
    (hcnt : cfg.convCnt ≤ 128) (adcMv : UInt16 → UInt16) (levels : Nat → Nat → UInt16)
    (mem : UInt32 → UInt16) (hi : i < cfg.convCnt.toNat) :
    wordAt (bulkMem adcMv (bufSize cfg) buff (ans.reads levels) (marked cfg) 0 ⟨mem, []⟩).mem
        buff (k * cfg.convCnt.toNat + i) =
      (adcResult adcMv (levels (chAt cfg k) i)).toUInt32 := by
  have hlast := marked_length cfg
  have hcnt' : cfg.convCnt.toNat ≤ 128 := UInt16.le_iff_toNat_le.mp hcnt
  have hcut : (bufSize cfg).toNat = cfg.convCnt.toNat := by
    rw [bufSize, convCnt_cut]
    omega
  have hcount : ans.count (chAt cfg k) = cfg.convCnt.toNat :=
    (ans.count_done _ hopen.1 hdone).trans hcut
  have hslots : (0 + (marked cfg).length) * (bufSize cfg).toNat ≤ 6 * 128 :=
    Nat.mul_le_mul (by omega) (by omega)
  have hread : ReadsOk (bufSize cfg) buff (ans.reads levels) (0 + k) (chAt cfg k) := by
    rw [Nat.zero_add]
    exact hopen
  -- both half-words of the element are in the slot of the channel
  have hcontent : ∀ b < 2, (bulkMem adcMv (bufSize cfg) buff (ans.reads levels) (marked cfg) 0
        ⟨mem, []⟩).mem (halfword buff (2 * (k * cfg.convCnt.toNat + i) + b)) =
      slotContent adcMv (bufSize cfg) (ans.reads levels (chAt cfg k)).samples
        (fun i => mem (halfword buff (2 * (k * cfg.convCnt.toNat) + i))) (2 * i + b) := by
    intro b hb
    have h := @bulkMem_content adcMv (bufSize cfg) buff _ (ans.possible levels) (chAt cfg k)
      (2 * i + b) (by omega) (marked cfg) 0 k ⟨mem, []⟩ (by omega) hc
    rw [if_pos hread] at h
    simp only [Nat.zero_add, hcut] at h
    rw [show 2 * (k * cfg.convCnt.toNat + i) + b = 2 * (k * cfg.convCnt.toNat) + (2 * i + b) by
      omega, h]
  have hstored : i < (ans.reads levels (chAt cfg k)).samples.length := by
    unfold Answers.reads
    rw [List.length_map, List.length_range, hcount]
    exact hi
  obtain ⟨hlow, hhigh⟩ := slotContent_result adcMv (hcut ▸ hcnt')
    (fun i => mem (halfword buff (2 * (k * cfg.convCnt.toNat) + i))) hstored
  rw [reads_getD ans levels _ (hcount ▸ hi)] at hlow
  exact wordAt_eq_iff.mpr ⟨(hcontent 0 (by omega)).trans hlow,
    (hcontent 1 (by omega)).trans hhigh⟩

end Results

section Meets

variable {a : AdcState} {cfg : AdcBaseCfg} (hinit : (tklAdcInit a 0 cfg).1 = oprtOk)
  {len : UInt16} {buff : UInt32} {ans : Answers (bufSize cfg)}

include hinit

theorem readData_ok (hmeets : BulkMeets cfg len buff ans) (adcMv : UInt16 → UInt16)
    (levels : Nat → Nat → UInt16) (mem : UInt32 → UInt16) :
    BulkReadOk cfg len buff ans (fun c i => (adcResult adcMv (levels c i)).toUInt32)
      (tklAdcReadDataMem adcMv (ans.reads levels) (tklAdcInit a 0 cfg).2.2 0 buff len
        ⟨mem, []⟩) := by
  obtain ⟨hmem, hret⟩ := readData_spec hinit adcMv ans levels buff len ⟨mem, []⟩
  generalize tklAdcReadDataMem adcMv (ans.reads levels) (tklAdcInit a 0 cfg).2.2 0 buff len
    ⟨mem, []⟩ = out at hmem hret
  unfold BulkMeets at hmeets
  split at hmeets
  · obtain ⟨hfails, hnone⟩ := hmeets
    have hnil : out.2.2.writes = [] := by
      rw [hmem]
      exact bulkMem_silent hnone adcMv levels mem
    refine ⟨fun a ha => ?_, fun _ => ⟨fun hok => hfails (hret.mp hok), hnil⟩,
      fun hok => absurd (hret.mp hok) hfails⟩
    rw [hnil] at ha
    exact nomatch ha
  · rename_i hlong
    obtain ⟨hfits, hall⟩ := hmeets
    refine ⟨fun a ha => ?_, fun hshort => absurd hshort hlong, fun hok k hk => ?_⟩
    · rw [hmem, marked_writes] at ha
      obtain ⟨j, c, hc, hopen, i, hi, rfl⟩ := ha
      have hend := hfits j c hc hopen
      exact mem_halfwords.mpr ⟨_, by omega, rfl⟩
    · obtain ⟨hc, hopen, hdone, hcnt⟩ := hall (hret.mp hok) k hk
      rw [hmem]
      exact ⟨hopen.1, hdone, fun i hi => bulkMem_result hc hopen hdone hcnt adcMv levels mem hi⟩

/-- A short buffer: the last channel is not opened, and no channel writes anything. -/
theorem meets_short (hok : BulkOk (tklAdcInit a 0 cfg).2.2 cfg len buff ans)
    (hshort : cfg.chNums.toNat * cfg.convCnt.toNat > len.toNat) :
    ¬ans.LastOpens buff (marked cfg) (cfg.chNums.toNat * (bufSize cfg).toNat ≤ len.toNat) ∧
      ∀ j c, (marked cfg)[j]? = some c → ans.OpensAt buff j c → ans.writes c = 0 := by
  obtain ⟨hfails, hnil⟩ := (hok id (fun _ _ => 0) (fun _ => 1) 0).1.short hshort
  obtain ⟨hmem, hret⟩ := readData_spec hinit id ans (fun _ _ => 0) buff len ⟨fun _ => 1, []⟩
  refine ⟨fun hlast => hfails (hret.mpr hlast), fun j c hc hopen => ?_⟩
  by_contra hpos
  have hin := (marked_writes ans id (fun _ _ => 0) buff (fun _ => 1) _).mpr
    ⟨j, c, hc, hopen, 0, Nat.pos_of_ne_zero hpos, rfl⟩
  rw [← hmem, hnil] at hin
  exact nomatch hin

/-- The writes of a channel that is opened end within the buffer. -/
theorem meets_fits (hok : BulkOk (tklAdcInit a 0 cfg).2.2 cfg len buff ans) {j c : Nat}
    (hc : (marked cfg)[j]? = some c) (hopen : ans.OpensAt buff j c) :
    ans.writes c = 0 ∨ 2 * (j * (bufSize cfg).toNat) + ans.writes c ≤ 2 * len.toNat := by
  have hlen := len.toNat_lt
  have hsize := (bufSize cfg).toNat_lt
  have hcs := marked_length cfg
  obtain ⟨hmem, -⟩ := readData_spec hinit id ans (fun _ _ => 0) buff len ⟨fun _ => 1, []⟩
  by_contra hover
  rw [not_or] at hover
  have hbound : ans.writes c ≤ 2 * 256 := by
    have hcount := ans.count_le c
    unfold Answers.writes touched
    split
    · omega
    · omega
  have hj : j * (bufSize cfg).toNat ≤ 6 * 256 :=
    Nat.mul_le_mul (by have := (List.getElem?_eq_some_iff.mp hc).1; omega) (by omega)
  -- the last half-word that the read writes
  have hin := (marked_writes ans id (fun _ _ => 0) buff (fun _ => 1) _).mpr
    ⟨j, c, hc, hopen, ans.writes c - 1, by omega, rfl⟩
  rw [← hmem] at hin
  obtain ⟨i, hi, heq⟩ :=
    mem_halfwords.mp ((hok id (fun _ _ => 0) (fun _ => 1) 0).1.inBuffer _ hin)
  have := halfword_inj (by omega) (by omega) heq
  omega

/-- What is in the buffer behind a read that succeeds, in a memory of ones. -/
theorem results_of_ok (hok : BulkOk (tklAdcInit a 0 cfg).2.2 cfg len buff ans)
    (hlast : ans.LastOpens buff (marked cfg)
      (cfg.chNums.toNat * (bufSize cfg).toNat ≤ len.toNat)) {k : Nat} (hk : k < cfg.chNums.toNat)
    (levels : Nat → Nat → UInt16) :
    ans.opened (chAt cfg k) = true ∧ ans.allDone (chAt cfg k) = true ∧
      ∀ i < cfg.convCnt.toNat,
        wordAt (bulkMem id (bufSize cfg) buff (ans.reads levels) (marked cfg) 0
            ⟨fun _ => 1, []⟩).mem buff (k * cfg.convCnt.toNat + i) =
          (adcResult id (levels (chAt cfg k) i)).toUInt32 := by
  obtain ⟨hmem, hret⟩ := readData_spec hinit id ans levels buff len ⟨fun _ => 1, []⟩
  rw [← hmem]
  exact (hok id levels (fun _ => 1) 0).1.ok (hret.mpr hlast) k hk

/-- The count is not more than the loops of the conversion reach. -/
theorem meets_count (hok : BulkOk (tklAdcInit a 0 cfg).2.2 cfg len buff ans)
    (hlong : cfg.chNums.toNat * cfg.convCnt.toNat ≤ len.toNat)
    (hlast : ans.LastOpens buff (marked cfg)
      (cfg.chNums.toNat * (bufSize cfg).toNat ≤ len.toNat)) {k : Nat}
    (hk : k < cfg.chNums.toNat) : cfg.convCnt.toNat ≤ 128 := by
  have hlen := len.toNat_lt
  have hsize := (bufSize cfg).toNat_lt
  have hcs := marked_length cfg
  have hcut : (bufSize cfg).toNat = cfg.convCnt.toNat % 256 := convCnt_cut cfg.convCnt
  have hslot : (k + 1) * cfg.convCnt.toNat ≤ cfg.chNums.toNat * cfg.convCnt.toNat :=
    Nat.mul_le_mul_right _ hk
  rw [Nat.succ_mul] at hslot
  -- 1 in the first 256 samples: all that is stored
  obtain ⟨hopen, -, helems⟩ :=
    results_of_ok hinit hok hlast hk fun _ i => if i < 256 then 1 else 0
  have hsize_ne := ans.size_ne _ hopen
  obtain ⟨hpos, -⟩ := size_pos hsize_ne
  have hones : ∀ c, ∀ v ∈ (ans.reads (fun _ i => if i < 256 then 1 else 0) c).samples, v = 1 := by
    intro c v hv
    obtain ⟨i, hi, rfl⟩ := List.mem_map.mp hv
    have hi : i < ans.count c := List.mem_range.mp hi
    have hcount := ans.count_le c
    exact if_pos (by omega)
  have hne : (1 : UInt16) ≠ 0 := by decide
  have hzero : adcResult id 0 = 0 := rfl
  by_contra hmany
  by_cases hle : (bufSize cfg).toNat ≤ 128
  · obtain ⟨hlow, -⟩ := wordAt_eq_iff.mp (helems 256 (by omega))
    rw [if_neg (by omega), hzero, bulkMem_one hsize_ne (ans.possible _) hcs (by omega)
      (.inl (by omega)) fun c _ _ => hones c] at hlow
    exact hne hlow
  · obtain ⟨-, hhigh⟩ := wordAt_eq_iff.mp (helems 0 (by omega))
    rw [bulkMem_one hsize_ne (ans.possible _) hcs (by omega) (.inr (by omega))
      fun c _ _ => hones c] at hhigh
    exact hne hhigh

/-- The `k`-th marked channel is the `k`-th of the list, and it is opened. -/
theorem meets_slot (hok : BulkOk (tklAdcInit a 0 cfg).2.2 cfg len buff ans)
    (hlong : cfg.chNums.toNat * cfg.convCnt.toNat ≤ len.toNat)
    (hlast : ans.LastOpens buff (marked cfg)
      (cfg.chNums.toNat * (bufSize cfg).toNat ≤ len.toNat)) {k : Nat}
    (hk : k < cfg.chNums.toNat) :
    (marked cfg)[k]? = some (chAt cfg k) ∧ ans.OpensAt buff k (chAt cfg k) := by
  have hlen := len.toNat_lt
  have hcnt := meets_count hinit hok hlong hlast hk
  have hcut : (bufSize cfg).toNat = cfg.convCnt.toNat := by
    rw [bufSize, convCnt_cut]
    omega
  have hslot : (k + 1) * cfg.convCnt.toNat ≤ cfg.chNums.toNat * cfg.convCnt.toNat :=
    Nat.mul_le_mul_right _ hk
  rw [Nat.succ_mul] at hslot
  -- 0 on this channel and 1 on the others
  obtain ⟨hopen, -, helems⟩ :=
    results_of_ok hinit hok hlast hk fun c _ => if c = chAt cfg k then 0 else 1
  have hsize_ne := ans.size_ne _ hopen
  obtain ⟨hpos, -⟩ := size_pos hsize_ne
  have hdiv : 2 * (k * cfg.convCnt.toNat + 0) / (2 * (bufSize cfg).toNat) = k := by
    rw [hcut, Nat.add_zero, Nat.mul_div_mul_left _ _ (by omega), Nat.mul_div_cancel _ (by omega)]
  have hne : (1 : UInt16) ≠ 0 := by decide
  have hzero : adcResult id 0 = 0 := rfl
  by_contra hother
  obtain ⟨hlow, -⟩ := wordAt_eq_iff.mp (helems 0 (by omega))
  rw [if_pos rfl, hzero, bulkMem_one hsize_ne (ans.possible _) (marked_length cfg) (by omega)
    (.inl (by omega))] at hlow
  · exact hne hlow
  · rw [hdiv]
    intro c hc hread v hv
    obtain ⟨i, -, rfl⟩ := List.mem_map.mp hv
    exact if_neg fun hsame : c = chAt cfg k => hother (hsame ▸ ⟨hc, hread⟩)

/-- The configuration and the answers that a read needs that does what it must. Its data and
    memory are chosen so that a result at another place shows. -/
theorem meets_of_ok (hok : BulkOk (tklAdcInit a 0 cfg).2.2 cfg len buff ans) :
    BulkMeets cfg len buff ans := by
  unfold BulkMeets
  split
  · rename_i hshort
    exact meets_short hinit hok hshort
  · rename_i hlong
    have hlong := Nat.not_lt.mp hlong
    refine ⟨fun j c hc hopen => meets_fits hinit hok hc hopen, fun hlast k hk => ?_⟩
    obtain ⟨hmarked, hopens⟩ := meets_slot hinit hok hlong hlast hk
    obtain ⟨-, hdone, -⟩ := results_of_ok hinit hok hlast hk fun _ _ => 0
    exact ⟨hmarked, hopens, hdone,
      UInt16.le_iff_toNat_le.mpr (meets_count hinit hok hlong hlast hk)⟩

end Meets

/-- Behind an init that succeeds, for every length, buffer and answers of the driver: the bulk
    reads do what they must, whatever is measured and in memory, if and only if the reads of the
    channels are as in `BulkMeets`. -/
theorem adc_bulk_iff {a : AdcState} {cfg : AdcBaseCfg} (hinit : (tklAdcInit a 0 cfg).1 = oprtOk)
    (len : UInt16) (buff : UInt32) (ans : Answers (bufSize cfg)) :
    BulkOk (tklAdcInit a 0 cfg).2.2 cfg len buff ans ↔ BulkMeets cfg len buff ans := by
  constructor
  · exact meets_of_ok hinit
  · intro hmeets adcMv levels mem portNum
    by_cases hport : portNum.toNat > 0
    · exact ⟨readData_port hport, readVoltage_ok (readData_port hport)⟩
    · obtain rfl : portNum = 0 := UInt8.toNat_inj.mp (Nat.eq_zero_of_not_pos hport)
      have hdata := readData_ok hinit hmeets adcMv levels mem
      exact ⟨hdata, readVoltage_ok hdata⟩

/-- The driver has all samples of all channels in time. -/
def allAnswered {size : UInt8} (hsize : size ≠ 0) : Answers size where
  opened := fun _ => true
  allDone := fun _ => true
  count := fun _ => size.toNat
  size_ne := fun _ _ => hsize
  count_le := fun _ => Nat.le_refl _
  count_done := fun _ _ _ => rfl

theorem bufSize_ten : bufSize (oneChannel 10) ≠ 0 := by decide

/-- 10 conversions into 10 words. -/
theorem adc_bulk_ten :
    BulkOk (tklAdcInit .static 0 (oneChannel 10)).2.2 (oneChannel 10) 10 0x1000
      (allAnswered bufSize_ten) := by
  refine (adc_bulk_iff rfl 10 0x1000 (allAnswered bufSize_ten)).mpr ?_
  have hmarked : marked (oneChannel 10) = [0] := by decide
  have hdata : slotData 0x1000 (bufSize (oneChannel 10)) 0 ≠ 0 := by decide
  unfold BulkMeets
  rw [if_neg (by decide), hmarked]
  refine ⟨fun j c hc _ => .inr ?_, fun _ k hk => ?_⟩
  · obtain rfl : j = 0 := Nat.lt_one_iff.mp (List.getElem?_eq_some_iff.mp hc).1
    show 2 * (0 * 10) + 20 ≤ 2 * 10
    decide
  · obtain rfl : k = 0 := Nat.lt_one_iff.mp hk
    exact ⟨rfl, ⟨rfl, hdata⟩, rfl, by decide⟩

/-- 10 conversions into 4 words: the read writes behind them and returns `OPRT_OK`. -/
theorem adc_bulk_short :
    ¬BulkOk (tklAdcInit .static 0 (oneChannel 10)).2.2 (oneChannel 10) 4 0x1000
      (allAnswered bufSize_ten) := by
  intro hok
  have hmeets := @meets_of_ok .static (oneChannel 10) rfl _ _ _ hok
  have hshort :
      (oneChannel 10).chNums.toNat * (oneChannel 10).convCnt.toNat > (4 : UInt16).toNat := by decide
  have hdata : slotData 0x1000 (bufSize (oneChannel 10)) 0 ≠ 0 := by decide
  unfold BulkMeets at hmeets
  rw [if_pos hshort] at hmeets
  exact hmeets.1 ⟨rfl, hdata⟩

end ArduinoT2.Driver
