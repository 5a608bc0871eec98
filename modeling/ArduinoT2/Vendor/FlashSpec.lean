import ArduinoT2.Vendor.Flash

/-
  What the driver functions of `Vendor.Flash` do, for the layers above: setting the protection
  is read back as set, an erase is at most one operation, and a write inside the chip ANDs the
  buffer into exactly its range, page by page in ascending order.
-/

namespace ArduinoT2.Vendor

/-! ## Protection -/

/-- The row's fields can hold the protection value `v`. -/
def FlashConfig.Holds (c : FlashConfig) (v : BitVec 16) : Prop :=
  protectParam v &&& c.protectMask = protectParam v ∧ protectCmp v &&& 0x01 = protectCmp v ∧
    (protectCmp v <<< 8) ||| protectParam v = v

instance (c : FlashConfig) (v : BitVec 16) : Decidable (c.Holds v) :=
  inferInstanceAs (Decidable (_ ∧ _))

/-- The layout of a row: 22-bit addresses, two disjoint protect fields inside the register,
    and every protection value of the row fits them. -/
def FlashConfig.WellFormed (c : FlashConfig) : Prop :=
  (c.srSize = 1 ∨ c.srSize = 2) ∧ c.flashSize ≤ 0x400000 ∧
  BitField.Fits c.protectMask c.protectPost ∧
  BitField.Fits (0x01 : BitVec 16) c.cmpPost ∧
  (c.protectMask <<< c.protectPost) &&& ((0x01 : BitVec 16) <<< c.cmpPost) = 0 ∧
  (c.srSize = 1 → (c.protectMask <<< c.protectPost) &&& 0xFF = c.protectMask <<< c.protectPost ∧
    ((0x01 : BitVec 16) <<< c.cmpPost) &&& 0xFF = (0x01 : BitVec 16) <<< c.cmpPost) ∧
  c.Holds c.protectNone ∧ c.Holds c.protectAll ∧ c.Holds c.protectHalf ∧
    c.Holds c.unprotectLastBlock

instance (c : FlashConfig) : Decidable c.WellFormed := inferInstanceAs (Decidable (_ ∧ _))

theorem flashConfig_wellFormed :
    (defaultConfig :: flashConfig).all (fun c => decide c.WellFormed) = true := by
  decide +kernel

theorem cfg_mem (d : FlashDev) : d.cfg ∈ defaultConfig :: flashConfig := by
  unfold FlashDev.cfg flashGetCurrentFlashConfig
  cases h : flashConfig.find? fun c => c.flashId == d.flashId with
  | none => exact List.mem_cons_self
  | some c => exact List.mem_cons_of_mem _ (List.mem_of_find?_eq_some h)

theorem cfg_wellFormed (d : FlashDev) : d.cfg.WellFormed :=
  of_decide_eq_true (List.all_eq_true.mp flashConfig_wellFormed _ (cfg_mem d))

theorem cfg_holds (d : FlashDev) (t : ProtectType) : d.cfg.Holds (d.cfg.protectOf t) := by
  obtain ⟨_, _, _, _, _, _, h1, h2, h3, h4⟩ := cfg_wellFormed d
  cases t
  · exact h1
  · exact h2
  · exact h3
  · exact h4

@[simp] theorem cfg_setFlashProtect (d : FlashDev) (t : ProtectType) :
    (setFlashProtect d t).cfg = d.cfg := by
  simp only [setFlashProtect, flashWriteSr]
  repeat (first | rfl | split)

@[simp] theorem mem_setFlashProtect (d : FlashDev) (t : ProtectType) :
    (setFlashProtect d t).mem = d.mem := by
  simp only [setFlashProtect, flashWriteSr]
  repeat (first | rfl | split)

@[simp] theorem log_setFlashProtect (d : FlashDev) (t : ProtectType) :
    (setFlashProtect d t).log = d.log := by
  simp only [setFlashProtect, flashWriteSr]
  repeat (first | rfl | split)

@[simp] theorem drv_setFlashProtect (d : FlashDev) (t : ProtectType) :
    (setFlashProtect d t).drv = d.drv := by
  simp only [setFlashProtect, flashWriteSr]
  repeat (first | rfl | split)

/-- `protectValue` as the two fields of the register, whichever its width. -/
theorem protectValue_eq (d : FlashDev) :
    d.protectValue = (BitField.get d.sr 0x01 d.cfg.cmpPost <<< 8) |||
      BitField.get d.sr d.cfg.protectMask d.cfg.protectPost := by
  obtain ⟨hsize, _, hmask, hcmp, _, hcut, _⟩ := cfg_wellFormed d
  rcases hsize with h1 | h2
  · obtain ⟨hc1, hc2⟩ := hcut h1
    rw [← BitField.get_and_of_subset d.sr hmask hc1, ← BitField.get_and_of_subset d.sr hcmp hc2]
    simp [FlashDev.protectValue, flashReadSr, h1, BitField.get]
  · simp [FlashDev.protectValue, flashReadSr, h2, BitField.get]

/-- What is set is read back: on every chip of the table, from every register content. -/
theorem protectValue_setFlashProtect (d : FlashDev) (t : ProtectType) :
    (setFlashProtect d t).protectValue = d.cfg.protectOf t := by
  obtain ⟨hsize, _, hmask, hcmp, hdisj, hcut, _⟩ := cfg_wellFormed d
  obtain ⟨hp, hc, hv⟩ := cfg_holds d t
  -- the fields of the register behind the write, or of the register left as it was
  suffices h : BitField.get (setFlashProtect d t).sr 0x01 d.cfg.cmpPost =
        protectCmp (d.cfg.protectOf t) ∧
      BitField.get (setFlashProtect d t).sr d.cfg.protectMask d.cfg.protectPost =
        protectParam (d.cfg.protectOf t) by
    rw [protectValue_eq, cfg_setFlashProtect, h.1, h.2, hv]
  generalize hsr : flashReadSr d.cfg.srSize d.sr = sr
  have hput : ∀ v, BitField.get (BitField.put (BitField.put v d.cfg.protectMask d.cfg.protectPost
        (protectParam (d.cfg.protectOf t))) 0x01 d.cfg.cmpPost (protectCmp (d.cfg.protectOf t)))
        0x01 d.cfg.cmpPost = protectCmp (d.cfg.protectOf t) ∧
      BitField.get (BitField.put (BitField.put v d.cfg.protectMask d.cfg.protectPost
        (protectParam (d.cfg.protectOf t))) 0x01 d.cfg.cmpPost (protectCmp (d.cfg.protectOf t)))
        d.cfg.protectMask d.cfg.protectPost = protectParam (d.cfg.protectOf t) := by
    intro v
    exact ⟨BitField.get_put_self _ hcmp hc,
      by rw [BitField.get_put_of_disjoint _ hmask hdisj hc, BitField.get_put_self _ hmask hp]⟩
  unfold setFlashProtect
  simp only [hsr, hc]
  split
  · obtain ⟨h1, h2⟩ := hput sr
    rcases hsize with hs | hs
    · obtain ⟨hc1, hc2⟩ := hcut hs
      rw [flashWriteSr, if_pos hs]
      exact ⟨(BitField.get_and_of_subset _ hcmp hc2).trans h1,
        (BitField.get_and_of_subset _ hmask hc1).trans h2⟩
    · rw [flashWriteSr, if_neg (by omega), if_pos hs]
      exact ⟨h1, h2⟩
  · rename_i hsame
    simp only [ne_eq, not_or, not_not] at hsame
    have h1 := BitField.get_of_eq_in_place hcmp hc hsame.2
    have h2 := BitField.get_of_eq_in_place hmask hp hsame.1
    rcases hsize with hs | hs
    · obtain ⟨hc1, hc2⟩ := hcut hs
      rw [← hsr, flashReadSr, if_neg (by omega)] at h1 h2
      exact ⟨(BitField.get_and_of_subset _ hcmp hc2).symm.trans h1,
        (BitField.get_and_of_subset _ hmask hc1).symm.trans h2⟩
    · rw [← hsr, flashReadSr, if_pos hs] at h1 h2
      exact ⟨h1, h2⟩

/-! ## Operations of the chip -/

/-- A list of operations, one after the other. -/
def FlashDev.issueAll (d : FlashDev) (ops : List Nor.Op) : FlashDev := ops.foldl FlashDev.issue d

/-- Operations change the contents and the log; the log gets the protection of the start. -/
theorem issueAll_eq (d : FlashDev) (ops : List Nor.Op) :
    d.issueAll ops = { d with
      mem := Nor.execAll ops d.mem, log := d.log ++ ops.map fun o => (o, d.protectValue) } := by
  induction ops generalizing d with
  | nil => simp [FlashDev.issueAll]
  | cons o ops ih =>
    rw [show d.issueAll (o :: ops) = (d.issue o).issueAll ops from rfl, ih]
    simp [FlashDev.issue, FlashDev.protectValue, FlashDev.cfg]

theorem issueAll_append (d : FlashDev) (ops ops' : List Nor.Op) :
    d.issueAll (ops ++ ops') = (d.issueAll ops).issueAll ops' := List.foldl_append

/-- The operation of one sector erase: none when the sector lies behind the chip. -/
def eraseOp (c : FlashConfig) (address : Nat) : List Nor.Op :=
  if c.flashSize ≤ address &&& 0xFFF000 then [] else [.erase (address &&& 0xFFF000) 4096]

theorem flashEraseSector_eq (d : FlashDev) (address : Nat) :
    flashEraseSector d address = d.issueAll (eraseOp d.cfg address) := by
  unfold flashEraseSector eraseOp
  dsimp only
  split <;> rfl

/-- The erases of a run of consecutive sectors. -/
theorem foldl_flashEraseSector (is : List Nat) (d : FlashDev) (n : Nat) :
    is.foldl (fun d i => flashEraseSector d (n * i)) d =
      d.issueAll (is.flatMap fun i => eraseOp d.cfg (n * i)) := by
  induction is generalizing d with
  | nil => rfl
  | cons i is ih =>
    rw [List.foldl_cons, ih, flashEraseSector_eq, List.flatMap_cons, issueAll_append,
      show (d.issueAll (eraseOp d.cfg (n * i))).cfg = d.cfg by rw [issueAll_eq]; rfl]

theorem flashSize_le (d : FlashDev) : d.cfg.flashSize ≤ 0x400000 := (cfg_wellFormed d).2.1

/-- The smallest chip of the table has 1 MiB. -/
theorem le_flashSize (d : FlashDev) : 0x100000 ≤ d.cfg.flashSize := by
  have hrows : (defaultConfig :: flashConfig).all
      (fun c => decide (0x100000 ≤ c.flashSize)) = true := by decide
  exact of_decide_eq_true (List.all_eq_true.mp hrows _ (cfg_mem d))

/-- A sector number of 12 bits is not cut by the 24-bit address. -/
theorem sector_and_mask {i : Nat} (h : i < 4096) : 4096 * i &&& 0xFFF000 = 4096 * i := by
  rw [show 4096 * i = i <<< 12 by rw [Nat.shiftLeft_eq, Nat.mul_comm],
    show (0xFFF000 : Nat) = (2 ^ 12 - 1) <<< 12 from rfl, ← Nat.shiftLeft_and_distrib,
    Nat.and_two_pow_sub_one_eq_mod, Nat.mod_eq_of_lt h]

theorem eraseOp_of_lt {c : FlashConfig} {i : Nat} (hc : c.flashSize ≤ 0x400000)
    (h : 4096 * i < c.flashSize) : eraseOp c (4096 * i) = [.erase (4096 * i) 4096] := by
  rw [eraseOp, sector_and_mask (by omega), if_neg (by omega)]

theorem mem_eraseOp {c : FlashConfig} {i : Nat} {o : Nor.Op} (hi : i < 4096)
    (h : o ∈ eraseOp c (4096 * i)) : o = .erase (4096 * i) 4096 := by
  rw [eraseOp, sector_and_mask hi] at h
  split at h
  · cases h
  · exact List.mem_singleton.mp h

/-! ## Reading and writing -/

theorem flashReadLoop_eq (m : Nor.Mem) (address len : Nat) :
    flashReadLoop m (address / 32 * 32) address len = Nor.read m address len := by
  induction len using Nat.strong_induction_on generalizing address with
  | _ len ih =>
    rw [flashReadLoop]
    split
    · rename_i h
      subst h
      rfl
    · rename_i h
      generalize hn : min (32 - address % 32) len = n
      dsimp only
      have hsplit : len = n + (len - n) := by omega
      -- only a page read to its end is followed by another one
      have hnext : flashReadLoop m (address / 32 * 32 + 32) (address + n) (len - n) =
          Nor.read m (address + n) (len - n) := by
        by_cases hlast : len - n = 0
        · rw [hlast, flashReadLoop, if_pos rfl]
          rfl
        · rw [show address / 32 * 32 + 32 = (address + n) / 32 * 32 by omega]
          exact ih _ (by omega) _
      rw [hnext]
      conv_rhs => rw [hsplit, Nor.read_add]
      rw [show address / 32 * 32 + address % 32 = address by omega]
      rfl

theorem flashReadData_eq (m : Nor.Mem) (address len : Nat) :
    flashReadData m address len = Nor.read m address len := flashReadLoop_eq m address len

/-- One page of the write loop: the page buffer carries the old contents in front of the data
    (the page was read, or the data starts at its first byte) and behind them (the page was
    read, or the data reaches its end), so the page programs just the data. -/
theorem flashWriteLoop_page (m : Nor.Mem) (pb buffer : List UInt8) (address : Nat)
    (hlen : pb.length = 32)
    (hpb : ∀ i, i < address % 32 → pb.getD i 0xFF = m (address / 32 * 32 + i)) :
    let pb' := if buffer.length < 32 then flashReadData m (address / 32 * 32) 32 else pb
    let n := min (32 - address % 32) buffer.length
    let page := pb'.take (address % 32) ++ buffer.take n ++ pb'.drop (address % 32 + n)
    page.length = 32 ∧ (Nor.Op.program (address / 32 * 32) page).exec m =
      (Nor.Op.program address (buffer.take n)).exec m := by
  intro pb' n page
  have hlen' : pb'.length = 32 := by
    by_cases hs : buffer.length < 32
    · simp only [pb', if_pos hs, flashReadData_eq, Nor.length_read]
    · simp only [pb', if_neg hs, hlen]
  have hfront : ∀ i, i < address % 32 → pb'.getD i 0xFF = m (address / 32 * 32 + i) := by
    intro i hi
    by_cases hs : buffer.length < 32
    · simp only [pb', if_pos hs, flashReadData_eq]
      exact Nor.getD_read (by omega) _
    · simp only [pb', if_neg hs]
      exact hpb i hi
  have hback : ∀ i, address % 32 + n + i < 32 →
      pb'.getD (address % 32 + n + i) 0xFF = m (address / 32 * 32 + (address % 32 + n + i)) := by
    intro i hi
    have hs : buffer.length < 32 := by omega
    simp only [pb', if_pos hs, flashReadData_eq]
    exact Nor.getD_read (by omega) _
  have htake : (pb'.take (address % 32)).length = address % 32 := by
    rw [List.length_take, hlen']
    omega
  have hslice : (buffer.take n).length = n := by
    rw [List.length_take]
    omega
  refine ⟨?_, ?_⟩
  · simp only [page, List.length_append, htake, hslice, List.length_drop, hlen']
    omega
  · have hm := Nor.program_merge (address / 32 * 32) m (pb'.take (address % 32)) (buffer.take n)
      (pb'.drop (address % 32 + n)) ?_ ?_
    · rw [htake, show address / 32 * 32 + address % 32 = address by omega] at hm
      exact hm
    · intro i hi
      rw [htake] at hi
      rw [List.getD_eq_getElem?_getD, List.getElem?_take_of_lt hi, ← List.getD_eq_getElem?_getD]
      exact hfront i hi
    · intro i hi
      rw [List.length_drop, hlen'] at hi
      rw [List.getD_eq_getElem?_getD, List.getElem?_drop, ← List.getD_eq_getElem?_getD,
        hback i (by omega), htake, hslice]
      congr 1
      omega

/-- The write loop issues pages between the page of the first byte and the page of the last
    one, and together they program the buffer at `address`. -/
theorem flashWriteLoop_spec (buffer : List UInt8) : ∀ (d : FlashDev) (pb : List UInt8)
    (addr address : Nat), addr = address / 32 * 32 → pb.length = 32 →
    (∀ i, i < address % 32 → pb.getD i 0xFF = d.mem (addr + i)) →
    ∃ ops, flashWriteLoop d pb addr address buffer = d.issueAll ops ∧
      Nor.execAll ops d.mem = (Nor.Op.program address buffer).exec d.mem ∧
      ∀ o ∈ ops, addr ≤ o.addr ∧ o.addr + o.len ≤ (address + buffer.length + 31) / 32 * 32 := by
  induction hk : buffer.length using Nat.strong_induction_on generalizing buffer with
  | _ k ih =>
    intro d pb addr address haddr hlen hpb
    subst haddr hk
    by_cases h0 : buffer.length = 0
    · refine ⟨[], ?_, ?_, by simp⟩
      · rw [flashWriteLoop, if_pos h0]
        rfl
      · rw [List.eq_nil_of_length_eq_zero h0, Nor.program_nil]
        rfl
    · obtain ⟨hpage, hexec⟩ := flashWriteLoop_page d.mem pb buffer address hlen hpb
      rw [flashWriteLoop, if_neg h0]
      dsimp only at hpage hexec ⊢
      revert hpage hexec
      generalize hn : min (32 - address % 32) buffer.length = n
      generalize (if buffer.length < 32 then flashReadData d.mem (address / 32 * 32) 32
        else pb).take (address % 32) ++ buffer.take n ++ (if buffer.length < 32 then
          flashReadData d.mem (address / 32 * 32) 32 else pb).drop (address % 32 + n) = page
      intro hpage hexec
      have hrest : (buffer.drop n).length = buffer.length - n := List.length_drop
      by_cases hlast : buffer.length = n
      · -- the data end in this page
        refine ⟨[.program (address / 32 * 32) page], ?_, ?_, ?_⟩
        · rw [flashWriteLoop, if_pos (by omega)]
          rfl
        · rw [Nor.execAll_cons, Nor.execAll_nil, hexec, ← hlast, List.take_length]
        · simp only [List.mem_singleton, forall_eq, Nor.Op.addr, Nor.Op.len, hpage]
          omega
      · -- the data go on at the start of the next page
        have hnext : address / 32 * 32 + 32 = (address + n) / 32 * 32 := by omega
        obtain ⟨ops, hloop, heff, hfoot⟩ := ih (buffer.length - n) (by omega) (buffer.drop n) hrest
          (d.issue (.program (address / 32 * 32) page)) (List.replicate 32 0xFF)
          (address / 32 * 32 + 32) (address + n) hnext (by simp) (by omega)
        refine ⟨.program (address / 32 * 32) page :: ops, hloop, ?_, ?_⟩
        · rw [Nor.execAll_cons]
          refine heff.trans ?_
          have hlt : (buffer.take n).length = n := by
            rw [List.length_take]
            omega
          rw [show (d.issue (.program (address / 32 * 32) page)).mem = _ from hexec]
          conv_rhs => rw [← List.take_append_drop n buffer, Nor.program_append, hlt]
        · intro o ho
          rcases List.mem_cons.mp ho with rfl | ho
          · simp only [Nor.Op.addr, Nor.Op.len, hpage]
            omega
          · have := hfoot o ho
            omega

/-- A buffer of whole pages at a page boundary is programmed page by page as it is. -/
theorem flashWriteLoop_pages (k : Nat) : ∀ (d : FlashDev) (addr : Nat) (buffer : List UInt8),
    addr % 32 = 0 → buffer.length = 32 * k →
    flashWriteLoop d (List.replicate 32 0xFF) addr addr buffer =
      d.issueAll (Nor.pages 32 addr buffer k) := by
  induction k with
  | zero =>
    intro d addr buffer _ hlen
    rw [flashWriteLoop, if_pos (by omega)]
    rfl
  | succ k ih =>
    intro d addr buffer haddr hlen
    rw [flashWriteLoop, if_neg (by omega)]
    simp only [if_neg (show ¬ buffer.length < 32 by omega), haddr, Nat.sub_zero, List.take_zero,
      List.nil_append, Nat.zero_add, Nat.min_eq_left (show 32 ≤ buffer.length by omega)]
    rw [List.drop_eq_nil_of_le (by simp), List.append_nil,
      ih _ _ _ (by omega) (by rw [List.length_drop]; omega), Nor.pages_succ]
    rfl

/-- The range check of `flash_write_data`: the range, counted from its page start, lies in the
    chip. -/
def FlashDev.InRange (d : FlashDev) (address len : Nat) : Prop :=
  address / 32 * 32 < d.cfg.flashSize ∧ len ≤ d.cfg.flashSize ∧
    address / 32 * 32 + len ≤ d.cfg.flashSize

instance (d : FlashDev) (address len : Nat) : Decidable (d.InRange address len) :=
  inferInstanceAs (Decidable (_ ∧ _))

theorem flashWriteData_of_not_inRange {d : FlashDev} {buffer : List UInt8} {address : Nat}
    (h : ¬ d.InRange address buffer.length) : flashWriteData d buffer address = d := by
  unfold FlashDev.InRange at h
  rw [flashWriteData]
  exact if_pos (by omega)

/-- A write of whole pages at a page boundary, inside the chip, is these pages in order. -/
theorem flashWriteData_pages {d : FlashDev} {buffer : List UInt8} {address k : Nat}
    (haddr : address % 32 = 0) (hlen : buffer.length = 32 * k)
    (h : d.InRange address buffer.length) :
    flashWriteData d buffer address = d.issueAll (Nor.pages 32 address buffer k) := by
  unfold FlashDev.InRange at h
  rw [flashWriteData]
  dsimp only
  rw [if_neg (by omega), if_neg (by omega), show address / 32 * 32 = address by omega]
  exact flashWriteLoop_pages k d address buffer haddr hlen

/-- What is known of the operations `ops` of a write of `buffer` at `address`: they stay
    between the page of the first byte and the page of the last one, they program the range
    or, when the range check fails, nothing, and whole pages are programmed as they are. -/
structure WriteOps (d : FlashDev) (address : Nat) (buffer : List UInt8) (ops : List Nor.Op) :
    Prop where
  foot : ∀ o ∈ ops, address / 32 * 32 ≤ o.addr ∧
    o.addr + o.len ≤ (address + buffer.length + 31) / 32 * 32
  effect : Nor.execAll ops d.mem = if d.InRange address buffer.length
    then (Nor.Op.program address buffer).exec d.mem else d.mem
  pages : ∀ k, address % 32 = 0 → buffer.length = 32 * k →
    ops = if d.InRange address buffer.length then Nor.pages 32 address buffer k else []

/-- They depend on the contents and on the chip only. -/
theorem WriteOps.congr {d d₁ : FlashDev} {address : Nat} {buffer : List UInt8}
    {ops : List Nor.Op} (hcfg : d₁.cfg = d.cfg) (hmem : d₁.mem = d.mem)
    (h : WriteOps d₁ address buffer ops) : WriteOps d address buffer ops := by
  have hin : d₁.InRange address buffer.length ↔ d.InRange address buffer.length := by
    unfold FlashDev.InRange
    rw [hcfg]
  obtain ⟨hfoot, heff, hpages⟩ := h
  simp only [hin, hmem] at heff hpages
  exact ⟨hfoot, heff, hpages⟩

/-- The operations are read off the log, so they are determined by what they do. -/
theorem issueAll_inj {d : FlashDev} {ops ops' : List Nor.Op}
    (h : d.issueAll ops = d.issueAll ops') : ops = ops' := by
  have hlog := congrArg FlashDev.log h
  rw [issueAll_eq, issueAll_eq] at hlog
  exact List.map_injective_iff.mpr (fun o o' ho => (Prod.mk.inj ho).1)
    (List.append_cancel_left hlog)

theorem flashWriteData_spec (d : FlashDev) (buffer : List UInt8) (address : Nat) :
    ∃ ops, flashWriteData d buffer address = d.issueAll ops ∧ WriteOps d address buffer ops := by
  by_cases h : d.InRange address buffer.length
  · obtain ⟨ops, h1, h2, h3⟩ := flashWriteLoop_spec buffer d
      (if address % 32 ≠ 0 then flashReadData d.mem (address / 32 * 32) 32
        else List.replicate 32 0xFF) (address / 32 * 32) address rfl
      (by split <;> simp [flashReadData_eq])
      (by
        intro i hi
        rw [if_pos (by omega), flashReadData_eq, Nor.getD_read (by omega)])
    have heq : flashWriteData d buffer address = d.issueAll ops := by
      have h' := h
      unfold FlashDev.InRange at h'
      rw [flashWriteData]
      dsimp only
      rw [if_neg (by omega)]
      exact h1
    refine ⟨ops, heq, h3, h2.trans (if_pos h).symm, fun k haddr hlen => ?_⟩
    rw [if_pos h]
    exact issueAll_inj (heq.symm.trans (flashWriteData_pages haddr hlen h))
  · refine ⟨[], flashWriteData_of_not_inRange h, by simp, (if_neg h).symm, fun k _ _ => ?_⟩
    rw [if_neg h]

end ArduinoT2.Vendor
