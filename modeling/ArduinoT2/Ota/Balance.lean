import ArduinoT2.Ota.Exposure

/-
  The memory of the update (tkl_ota.c): how many blocks are allocated between the calls.

  `ug_proc` and `frist_block_databuf` are kept, the read buffer of `tkl_ota_end_notify` and the
  dummy data of the first block are for one call. But the dummy data are freed only when a write
  fails behind them or the packet finishes the image. `ota_balance_iff`: a run is balanced exactly
  if no packet brings the first block without doing either.
-/

namespace ArduinoT2.Ota

open ArduinoT2.Vendor ArduinoT2.Adapter StepSys

/-! ## The balance -/

/-- How many of `ug_proc` and `frist_block_databuf` are not NULL. -/
def held (s : Ota) : Nat := s.ugProc.isSome.toNat + s.fristBlockDatabuf.isSome.toNat

/-- What is allocated and not freed is `ug_proc` and `frist_block_databuf`. -/
def Balanced (s : Ota) : Prop := s.blocks = held s

/-- Behind a packet the blocks are balanced, and behind an end that has compared the checksum
    none is left. -/
def BalanceOk (s : Ota) (c : OtaCall) : Prop :=
  match c with
  | .startNotify _ => True
  | .dataProcess _ => Balanced (otaStep s c).1
  | .endNotify _ => s.ugProc ≠ none → s.malloc.1 = true → (otaStep s c).1.blocks = 0

/-- A packet that is shorter than the image brings the first block, and neither an allocation
    for it nor a write of a block of the packet fails. -/
def TakesFirst (s : Ota) : OtaCall → Prop
  | .dataProcess pack => ∃ p, s.ugProc = some p ∧ p.stat = .recvImgData ∧ s.firstBlock = true ∧
      rtImgWrUnit ≤ pack.data.length ∧ pack.data.length < p.fileHeader.binLen.toNat ∧
      ¬FirstFails s ∧ ∀ f ∈ s.writes.take (pack.data.length / rtImgWrUnit), f = .ok
  | _ => False

/-! ## Surroundings -/

section Surroundings

variable (s : Ota) (addr : UInt32) (src : List UInt8) (size : UInt32)

theorem blocks_malloc : s.malloc.2.blocks = s.blocks + s.malloc.1.toNat := by
  unfold Ota.malloc
  split <;> rfl

@[simp] theorem blocks_guardedWrite : (s.guardedWrite addr src).2.blocks = s.blocks := by
  rw [guardedWrite_frame]

@[simp] theorem blocks_guardedErase : (s.guardedErase addr size).blocks = s.blocks := by
  simp only [Ota.guardedErase, Ota.setProtect]

theorem blocks_freeIf (buf : Bool) : (s.freeIf buf).blocks = s.blocks - buf.toNat := by
  cases buf <;> rfl

theorem held_congr {s s' : Ota} (hug : s'.ugProc = s.ugProc)
    (hfrist : s'.fristBlockDatabuf = s.fristBlockDatabuf) : held s' = held s := by
  unfold held
  rw [hug, hfrist]

end Surroundings

/-! ## The blocks of a packet -/

/-- What is allocated is balanced but for the dummy data, if there are any. -/
def BalancedBut (s : Ota) (buf : Bool) : Prop := s.blocks = held s + buf.toNat

theorem BalancedBut.freeIf {s : Ota} {buf : Bool} (h : BalancedBut s buf) :
    Balanced (s.freeIf buf) := by
  unfold BalancedBut at h
  unfold Balanced
  rw [blocks_freeIf, held_congr (ugProc_freeIf s buf) (frist_freeIf s buf), h,
    Nat.add_sub_cancel]

theorem BalancedBut.congr {s s' : Ota} {buf : Bool} (h : BalancedBut s buf)
    (hblocks : s'.blocks = s.blocks) (hug : s'.ugProc = s.ugProc)
    (hfrist : s'.fristBlockDatabuf = s.fristBlockDatabuf) : BalancedBut s' buf := by
  unfold BalancedBut at h ⊢
  rw [hblocks, held_congr hug hfrist, h]

theorem balancedBut_false {s : Ota} : BalancedBut s false ↔ Balanced s := Iff.rfl

/-- The saved block is paid for. -/
theorem saveFirstBlock_balanced {s : Ota} (h : Balanced s) (blk : Block) :
    Ends Balanced Balanced (saveFirstBlock s blk) := by
  unfold Balanced held at h
  unfold saveFirstBlock
  cases hfr : s.fristBlockDatabuf with
  | some b =>
    show s.blocks = _
    rw [h, hfr]
    rfl
  | none =>
    simp only
    rw [hfr] at h
    have hblocks := blocks_malloc s
    cases hm : s.malloc.1 with
    | true =>
      rw [hm] at hblocks
      show s.malloc.2.blocks = s.malloc.2.ugProc.isSome.toNat + 1
      rw [ugProc_malloc, hblocks, h]
      rfl
    | false =>
      rw [hm] at hblocks
      show s.malloc.2.blocks = held s.malloc.2
      unfold held
      rw [ugProc_malloc, frist_malloc, hfr, hblocks, h]
      rfl

/-- A block that fails leaves the blocks balanced, one that is written leaves the dummy data if
    it is the first. -/
theorem writeBlock_balanced {s : Ota} {buf : Bool} (h : BalancedBut s buf)
    (hbuf : s.firstBlock = true → buf = false) (p : UgProc) (blk : Block) :
    Ends Balanced (fun r => BalancedBut r.1 r.2 ∧ r.2 = (buf || s.firstBlock))
      (writeBlock s p buf blk) := by
  refine writeBlock_ends (fun hfirst => ?_) fun hfirst => ?_
  · obtain rfl := hbuf hfirst
    refine (saveFirstBlock_balanced (balancedBut_false.mp h) blk).imp (fun _ he => he)
      fun s₁ h₁ => ?_
    have hblocks := blocks_malloc s₁
    unfold Balanced at h₁
    rw [h₁, ← held_congr (ugProc_malloc s₁) (frist_malloc s₁)] at hblocks
    refine ⟨fun hm => by rw [hm] at hblocks; exact hblocks, fun hm => ?_⟩
    rw [hm] at hblocks
    have hw : BalancedBut (s₁.malloc.2.guardedWrite p.flashAddr
        (List.replicate rtImgWrUnit 0xFF)).2 true :=
      BalancedBut.congr hblocks (blocks_guardedWrite _ _ _) (ugProc_guardedWrite _ _ _)
        (frist_guardedWrite _ _ _)
    generalize s₁.malloc.2.guardedWrite p.flashAddr (List.replicate rtImgWrUnit 0xFF) = w at *
    exact ⟨fun _ => ⟨hw.congr rfl rfl rfl, hfirst.symm⟩, fun _ => hw.freeIf⟩
  · have hw : BalancedBut (s.guardedWrite p.flashAddr blk.bytes).2 buf :=
      h.congr (blocks_guardedWrite _ _ _) (ugProc_guardedWrite _ _ _) (frist_guardedWrite _ _ _)
    generalize s.guardedWrite p.flashAddr blk.bytes = w at *
    exact ⟨fun _ => ⟨hw, by rw [hfirst, Bool.or_false]⟩, fun _ => hw.freeIf⟩

/-- The loop leaves the dummy data if it has written the first block. -/
theorem blockLoop_balanced (s : Ota) (p : UgProc) (buf : Bool) (rest : List UInt8)
    (h : BalancedBut s buf) (hug : s.ugProc.isSome) (hbuf : s.firstBlock = true → buf = false) :
    Ends (fun r => Balanced r.1) (fun r => BalancedBut r.1 r.2.2.1 ∧
      r.2.2.1 = (buf || s.firstBlock && decide (rtImgWrUnit ≤ rest.length)))
      (blockLoop s p buf rest) := by
  -- what the flag of the dummy data will be does not change
  have hends := @blockLoop_ends
    (fun s₁ _ buf₁ rest₁ => BalancedBut s₁ buf₁ ∧ s₁.ugProc.isSome ∧
      (s₁.firstBlock = true → buf₁ = false) ∧
      (buf₁ || s₁.firstBlock && decide (rtImgWrUnit ≤ rest₁.length)) =
        (buf || s.firstBlock && decide (rtImgWrUnit ≤ rest.length)))
    (fun s' _ => Balanced s') ?_ s p buf rest ⟨h, hug, hbuf, rfl⟩
  · refine hends.imp (fun _ he => he) fun r ⟨⟨hbal, _, _, hflag⟩, hlt⟩ => ⟨hbal, ?_⟩
    rw [← hflag, decide_eq_false (Nat.not_le.mpr hlt), Bool.and_false, Bool.or_false]
  · rintro s₁ p₁ buf₁ blk rest₁ ⟨hbal, hug₁, hbuf₁, hflag⟩
    have hlen : rtImgWrUnit ≤ (blk.bytes ++ rest₁).length := by
      rw [List.length_append, blk.len]
      exact Nat.le_add_right _ _
    refine ((writeBlock_step s₁ p₁ buf₁ blk).and (writeBlock_balanced hbal hbuf₁ p₁ blk)).imp
      (fun _ he => he.2) ?_
    rintro ⟨s₂, buf₂⟩ ⟨⟨hb, hfirst⟩, hbal₂, hbuf₂⟩
    dsimp only at hb hfirst hbal₂ hbuf₂ ⊢
    refine ⟨?_, rfl, fun hf => ?_, ?_⟩
    · unfold BalancedBut held at hbal₂ ⊢
      rwa [hb.ugProc, hug₁] at hbal₂
    · exact absurd (hfirst.symm.trans hf) Bool.false_ne_true
    · rw [hfirst, Bool.false_and, Bool.or_false, hbuf₂, ← hflag, decide_eq_true hlen,
        Bool.and_true]

/-! ## When the loop succeeds -/

theorem guardedWrite_ok_iff (s : Ota) (addr : UInt32) (src : List UInt8) :
    (s.guardedWrite addr src).1 = oprtOk ↔ fate s = .ok := by
  obtain ⟨ops, hw⟩ := guardedWrite_spec s addr src
  have hne : oprtComError ≠ oprtOk := by decide
  cases hf : fate s with
  | ok => exact iff_of_true (hw.ok hf).1 rfl
  | fail mask =>
    rw [(hw.fail mask hf).1]
    exact iff_of_false hne (fun h => nomatch h)

theorem fate_congr {s s' : Ota} (h : s'.writes = s.writes) : fate s' = fate s := by
  unfold fate
  rw [h]

/-- If no allocation for the first block fails, it is saved and the dummy data are allocated. -/
theorem saveFirstBlock_of_not_fails {s : Ota} (hfirst : s.firstBlock = true) (h : ¬FirstFails s)
    (blk : Block) :
    ∃ s₁, saveFirstBlock s blk = .ok s₁ ∧ s₁.malloc.1 = true ∧ s₁.writes = s.writes := by
  have hmalloc : s.malloc.1 = true := by
    by_contra hno
    exact h ⟨hfirst, .inl (Bool.eq_false_iff.mpr hno)⟩
  unfold saveFirstBlock
  cases hfr : s.fristBlockDatabuf with
  | some b => exact ⟨_, rfl, (malloc_withFrist s (some blk)).trans hmalloc, rfl⟩
  | none =>
    have hsecond : s.malloc.2.malloc.1 = true := by
      by_contra hno
      exact h ⟨hfirst, .inr ⟨hfr, Bool.eq_false_iff.mpr hno⟩⟩
    simp only [if_pos hmalloc]
    exact ⟨_, rfl, (malloc_withFrist s.malloc.2 (some blk)).trans hsecond, writes_malloc s⟩

/-- A block is written if its allocations and its write succeed. -/
theorem writeBlock_ok_iff (s : Ota) (p : UgProc) (buf : Bool) (blk : Block) :
    (∃ r, writeBlock s p buf blk = .ok r) ↔ ¬FirstFails s ∧ fate s = .ok := by
  by_cases hfails : FirstFails s
  · obtain ⟨s', he, -⟩ := writeBlock_of_firstFails hfails p buf blk
    rw [he]
    exact iff_of_false (fun ⟨_, h⟩ => nomatch h) fun h => h.1 hfails
  rw [and_iff_right hfails]
  unfold writeBlock
  cases hfirst : s.firstBlock with
  | true =>
    obtain ⟨s₁, hsave, hmalloc, hwrites⟩ := saveFirstBlock_of_not_fails hfirst hfails blk
    have hrc := guardedWrite_ok_iff s₁.malloc.2 p.flashAddr (List.replicate rtImgWrUnit 0xFF)
    rw [fate_congr ((writes_malloc s₁).trans hwrites)] at hrc
    rw [if_pos rfl, hsave]
    simp only [if_pos hmalloc]
    split
    · rename_i hno
      exact iff_of_false (fun ⟨_, h⟩ => nomatch h) fun hf => hno (hrc.mpr hf)
    · rename_i hyes
      exact iff_of_true ⟨_, rfl⟩ (hrc.mp (not_not.mp hyes))
  | false =>
    have hrc := guardedWrite_ok_iff s p.flashAddr blk.bytes
    rw [if_neg Bool.false_ne_true]
    simp only
    split
    · rename_i hno
      exact iff_of_false (fun ⟨_, h⟩ => nomatch h) fun hf => hno (hrc.mpr hf)
    · rename_i hyes
      exact iff_of_true ⟨_, rfl⟩ (hrc.mp (not_not.mp hyes))

/-- A block that is written uses up one fate. -/
theorem writeBlock_writes {s s' : Ota} {p : UgProc} {buf buf' : Bool} {blk : Block}
    (h : writeBlock s p buf blk = .ok (s', buf')) : s'.writes = s.writes.tail := by
  unfold writeBlock at h
  split at h
  · rcases saveFirstBlock_cases s blk with ⟨hsave, -⟩ | ⟨s₁, hsave, -, -, -, -, -, hwr, -⟩
    · rw [hsave] at h
      cases h
    · rw [hsave] at h
      have hw := writes_guardedWrite s₁.malloc.2 p.flashAddr (List.replicate rtImgWrUnit 0xFF)
      simp only at h
      generalize s₁.malloc.2.guardedWrite p.flashAddr (List.replicate rtImgWrUnit 0xFF) = w at *
      split_ifs at h
      cases h
      rw [hw, writes_malloc, hwr]
  · have hw := writes_guardedWrite s p.flashAddr blk.bytes
    simp only at h
    generalize s.guardedWrite p.flashAddr blk.bytes = w at *
    split_ifs at h
    cases h
    exact hw

theorem take_tail_ok (fs : List WriteFate) (n : Nat) :
    (∀ f ∈ fs.take (n + 1), f = .ok) ↔ fs.headD .ok = .ok ∧ ∀ f ∈ fs.tail.take n, f = .ok := by
  cases fs with
  | nil => simp
  | cons f fs => rw [List.take_succ_cons, List.forall_mem_cons]; rfl

/-- The loop passes all blocks if no allocation for the first one and no write fails. -/
theorem blockLoop_ok_iff (s : Ota) (p : UgProc) (buf : Bool) (rest : List UInt8) :
    (∃ r, blockLoop s p buf rest = .ok r) ↔ (rtImgWrUnit ≤ rest.length → ¬FirstFails s) ∧
      ∀ f ∈ s.writes.take (rest.length / rtImgWrUnit), f = .ok := by
  induction hn : rest.length using Nat.strong_induction_on generalizing s p buf rest with
  | _ n ih =>
    subst hn
    rw [blockLoop]
    split
    · rename_i hlen
      have hdrop : (rest.drop rtImgWrUnit).length = rest.length - rtImgWrUnit := List.length_drop
      have hcount : rest.length / rtImgWrUnit = (rest.length - rtImgWrUnit) / rtImgWrUnit + 1 := by
        simp only [rtImgWrUnit] at *
        omega
      have hiff := writeBlock_ok_iff s p buf ⟨rest.take rtImgWrUnit, List.length_take_of_le hlen⟩
      rw [hcount, take_tail_ok, forall_prop_of_true hlen, ← and_assoc]
      rcases writeBlock_cases s p buf ⟨rest.take rtImgWrUnit, List.length_take_of_le hlen⟩ with
        ⟨s₁, hw, -⟩ | ⟨s₁, buf₁, hw, hb, hfirst, -⟩
      · rw [hw] at hiff ⊢
        refine iff_of_false (fun hok => ?_) fun hok => ?_
        · obtain ⟨r, hr⟩ := hok
          cases hr
        · obtain ⟨r, hr⟩ := hiff.mpr hok.1
          cases hr
      · have hnot : ¬FirstFails { s₁ with ugProc := some (p.advance rtImgWrUnit) } := by
          rintro ⟨hf, -⟩
          rw [hfirst] at hf
          cases hf
        rw [hw] at hiff ⊢
        have hok : ¬FirstFails s ∧ s.writes.headD .ok = .ok := hiff.mp ⟨_, rfl⟩
        have hstep := ih (rest.length - rtImgWrUnit) (by simp only [rtImgWrUnit] at *; omega)
          { s₁ with ugProc := some (p.advance rtImgWrUnit) } (p.advance rtImgWrUnit) buf₁
          (rest.drop rtImgWrUnit) hdrop
        rw [and_iff_right hok, ← writeBlock_writes hw]
        exact hstep.trans (and_iff_right fun _ => hnot)
    · rename_i hlen
      have hzero : rest.length / rtImgWrUnit = 0 := Nat.div_eq_of_lt (Nat.lt_of_not_le hlen)
      rw [hzero, List.take_zero]
      exact iff_of_true ⟨_, rfl⟩ ⟨fun h => absurd h hlen, fun f hf => by cases hf⟩

/-! ## One packet -/

/-- A session that is set again is as allocated as before. -/
theorem BalancedBut.withProc {s : Ota} {buf : Bool} (h : BalancedBut s buf)
    (hug : s.ugProc.isSome) (q : UgProc) : BalancedBut { s with ugProc := some q } buf := by
  unfold BalancedBut held at h ⊢
  rwa [hug] at h

/-- Behind the loop the dummy data are freed if the bytes left over are written or the session
    is finished, else they are not. -/
theorem recvTail_balanced {s : Ota} {p : UgProc} {k : Nat} {buf : Bool} {data : List UInt8}
    (h : BalancedBut s buf) (hug : s.ugProc.isSome) (hlt : data.length < k + rtImgWrUnit) :
    let s' := (recvTail s (p.advance k) buf (data.drop k)).2
    let ends := TakesTail p data.length k ∨ p.fileHeader.binLen ≤ (p.advance k).recvDataCnt
    (ends → Balanced s') ∧ (¬ends → s' = s) := by
  have hlen : (data.drop k).length = data.length - k := List.length_drop
  have hw : BalancedBut (s.guardedWrite (p.advance k).flashAddr (data.drop k)).2 buf :=
    h.congr (blocks_guardedWrite _ _ _) (ugProc_guardedWrite _ _ _) (frist_guardedWrite _ _ _)
  have hug' : (s.guardedWrite (p.advance k).flashAddr (data.drop k)).2.ugProc.isSome := by
    rwa [ugProc_guardedWrite]
  unfold recvTail
  generalize s.guardedWrite (p.advance k).flashAddr (data.drop k) = w at *
  split
  · rename_i htail
    rw [hlen] at htail
    have htail : TakesTail p data.length k := htail
    have hall := le_advance_of_takesTail hlt htail
    refine ⟨fun _ => ?_, fun hno => absurd (.inl htail) hno⟩
    simp only
    split
    · exact hw.freeIf
    · rw [hlen, advance_advance]
      unfold finishCheck
      rw [if_pos (show (p.advance _).fileHeader.binLen ≤ _ from hall)]
      exact (hw.withProc hug' _).freeIf
  · rename_i htail
    rw [hlen] at htail
    have htail : ¬TakesTail p data.length k := htail
    unfold finishCheck
    split
    · rename_i hall
      exact ⟨fun _ => (h.withProc hug _).freeIf, fun hno => absurd (.inr hall) hno⟩
    · rename_i hnot
      exact ⟨fun hends => absurd hends (not_or.mpr ⟨htail, hnot⟩), fun _ => rfl⟩

/-- A packet that brings the first block ends the image if it is as long as the image. -/
theorem ends_iff {p : UgProc} (hzero : p.recvDataCnt = 0) {n k : Nat} (hn : n < 2 ^ 32)
    (hk : k ≤ n) (hlt : n < k + rtImgWrUnit) (hunit : rtImgWrUnit ≤ n) (hdvd : rtImgWrUnit ∣ k) :
    TakesTail p n k ∨ p.fileHeader.binLen ≤ (p.advance k).recvDataCnt ↔
      p.fileHeader.binLen.toNat ≤ n := by
  have hfits := p.fits
  unfold TakesTail
  rw [recvDataCnt_advance, hzero, UInt32.zero_add, UInt32.lt_iff_toNat_lt, UInt32.le_iff_toNat_le]
  simp only [UInt32.toNat_sub, UInt32.toNat_ofNat', rtImgWrUnit, otaMaxBinSize] at *
  omega

/-- A packet takes the first block if the loop passes it and all others of the packet. -/
theorem takesFirst_iff {s : Ota} {p : UgProc} (hp : s.ugProc = some p)
    (hst : p.stat = .recvImgData) (pack : OtaPack) :
    TakesFirst s (.dataProcess pack) ↔ s.firstBlock = true ∧
      rtImgWrUnit ≤ pack.data.length ∧ pack.data.length < p.fileHeader.binLen.toNat ∧
      ∃ r, blockLoop s p false pack.data = .ok r := by
  rw [blockLoop_ok_iff]
  constructor
  · rintro ⟨q, hq, -, hfirst, hunit, hshort, hfails, hfates⟩
    obtain rfl := Option.some.inj (hp.symm.trans hq)
    exact ⟨hfirst, hunit, hshort, fun _ => hfails, hfates⟩
  · rintro ⟨hfirst, hunit, hshort, hfails, hfates⟩
    exact ⟨p, hp, hst, hfirst, hunit, hshort, hfails hunit, hfates⟩

/-- A packet of the image stays balanced if and only if it does not take the first block of a
    longer image. -/
theorem recvImgData_balanced {s : Ota} {p : UgProc} (hv : Valid s) (h : Balanced s)
    (hp : s.ugProc = some p) (hst : p.stat = .recvImgData) (pack : OtaPack) :
    Balanced (recvImgData s p pack.data).2 ↔ ¬TakesFirst s (.dataProcess pack) := by
  rw [takesFirst_iff hp hst]
  unfold recvImgData
  split
  · rename_i hwait
    exact iff_of_true h fun ht => absurd ht.2.1 (Nat.not_le.mpr hwait.1)
  have hends := blockLoop_balanced s p false pack.data (balancedBut_false.mpr h)
    (by rw [hp]; rfl) fun _ => rfl
  obtain ⟨k, s₁, hl, hend⟩ := blockLoop_step s p false pack.data
  rcases hend with ⟨heq, -⟩ | ⟨hlt, buf, heq⟩
  · rw [heq]
    exact iff_of_true (hends.error heq) fun ⟨_, _, _, _, h⟩ => nomatch h
  · obtain ⟨hbut, hbuf⟩ := hends.ok heq
    have hug : s₁.ugProc.isSome := by
      rw [hl.ugProc hp]
      rfl
    obtain ⟨hfreed, hkept⟩ := recvTail_balanced (p := p) hbut hug hlt
    rw [heq]
    simp only
    by_cases hends : TakesTail p pack.data.length k ∨
        p.fileHeader.binLen ≤ (p.advance k).recvDataCnt
    · refine iff_of_true (hfreed hends) fun ⟨hfirst, hunit, hshort, _⟩ => ?_
      have hzero := (hv p hp).first hst hfirst
      exact absurd ((ends_iff hzero pack.len_lt hl.le hlt hunit hl.dvd).mp hends)
        (Nat.not_le.mpr hshort)
    · -- the dummy data are not freed
      rw [hkept hends]
      unfold BalancedBut at hbut
      unfold Balanced
      rw [hbut, Nat.add_eq_left]
      cases hbuf' : buf with
      | true =>
        rw [hbuf'] at hbuf
        have hboth : s.firstBlock = true ∧ rtImgWrUnit ≤ pack.data.length := by simpa using hbuf
        obtain ⟨hfirst, hunit⟩ := hboth
        have hzero := (hv p hp).first hst hfirst
        have hshort := mt (ends_iff hzero pack.len_lt hl.le hlt hunit hl.dvd).mpr hends
        exact iff_of_false (fun h0 => nomatch h0)
          (not_not.mpr ⟨hfirst, hunit, Nat.not_le.mp hshort, _, rfl⟩)
      | false =>
        refine iff_of_true rfl fun ⟨hfirst, hunit, _⟩ => ?_
        rw [hbuf', hfirst, decide_eq_true hunit] at hbuf
        exact nomatch hbuf

/-! ## Every call -/

theorem Balanced.congr {s s' : Ota} (h : Balanced s) (hblocks : s'.blocks = s.blocks)
    (hug : s'.ugProc.isSome = s.ugProc.isSome)
    (hfrist : s'.fristBlockDatabuf = s.fristBlockDatabuf) : Balanced s' := by
  unfold Balanced held at h ⊢
  rw [hblocks, hug, hfrist, h]

theorem startNotify_balanced {s : Ota} (h : Balanced s) (n : UInt32) :
    Balanced (tklOtaStartNotify s n).2 := by
  have hblocks := blocks_malloc s
  unfold tklOtaStartNotify
  split
  · exact h
  · cases hp : s.ugProc with
    | some p =>
      exact h.congr rfl (by rw [hp]; rfl) rfl
    | none =>
      unfold Balanced held at h
      rw [hp] at h
      simp only
      cases hm : s.malloc.1 with
      | true =>
        rw [hm] at hblocks
        rw [if_pos rfl]
        unfold Balanced held
        simp only [hblocks, h, frist_malloc]
        simp [Nat.add_comm]
      | false =>
        rw [hm] at hblocks
        rw [if_neg Bool.false_ne_true]
        unfold Balanced held
        simp only [hblocks, h, frist_malloc, ugProc_malloc, hp]
        simp

/-- A packet stays balanced if and only if it does not take the first block of a longer image. -/
theorem dataProcess_balanced {s : Ota} (hv : Valid s) (h : Balanced s) (pack : OtaPack) :
    Balanced (tklOtaDataProcess s pack.data).2 ↔ ¬TakesFirst s (.dataProcess pack) := by
  have hother : ∀ {p : UgProc}, s.ugProc = some p → p.stat ≠ .recvImgData →
      ¬TakesFirst s (.dataProcess pack) := by
    rintro p hp hne ⟨q, hq, hst, -⟩
    obtain rfl := Option.some.inj (hp.symm.trans hq)
    exact hne hst
  rcases tklOtaDataProcess_cases s pack.data with ⟨hnone, heq⟩ |
    ⟨p, hp, ⟨hst, heq⟩ | ⟨hst, heq⟩ | ⟨hst, heq⟩⟩
  · rw [heq]
    refine iff_of_true h ?_
    rintro ⟨p, hp, -⟩
    rw [hnone] at hp
    cases hp
  · refine iff_of_true ?_ (hother hp (by rw [hst]; exact (fun h => nomatch h)))
    rw [heq]
    have hug : s.ugProc.isSome = true := by
      rw [hp]
      rfl
    rcases recvHeader_cases s p pack.data with ⟨_, heq⟩ | ⟨_, heq⟩ | ⟨hacc, heq⟩
    · rw [heq]
      exact h
    · rw [heq]
      exact h.congr rfl hug.symm rfl
    · rw [heq]
      refine h.congr (blocks_guardedErase _ _ _) ?_ (frist_guardedErase _ _ _)
      rw [ugProc_guardedErase, hug]
      rfl
  · rw [heq]
    exact recvImgData_balanced hv h hp hst pack
  · rw [heq]
    exact iff_of_true h (hother hp (by rw [hst]; exact (fun h => nomatch h)))

theorem release_blocks (s : Ota) :
    s.release.blocks = s.blocks - 2 - s.fristBlockDatabuf.isSome.toNat := by
  unfold Ota.release
  simp only [blocks_freeIf, Ota.free]
  omega

/-- What is held and the read buffer are all that is allocated when a session is released. -/
theorem release_frees {s : Ota} {p : UgProc} (h : Balanced s) (hp : s.ugProc = some p)
    (hm : s.malloc.1 = true) {s' : Ota} (hblocks : s'.blocks = s.malloc.2.blocks)
    (hfrist : s'.fristBlockDatabuf = s.fristBlockDatabuf) : s'.release.blocks = 0 := by
  have hmalloc := blocks_malloc s
  unfold Balanced held at h
  rw [hp] at h
  rw [hm] at hmalloc
  rw [release_blocks, hblocks, hfrist, hmalloc, h]
  simp only [Option.isSome_some, Bool.toNat_true]
  omega

/-- An end that fails before it compares the checksum allocates nothing, any other frees all. -/
theorem endNotify_balanced {s : Ota} (h : Balanced s) (reset : Bool) :
    let s' := (tklOtaEndNotify s reset).2
    Balanced s' ∧ (s.ugProc ≠ none → s.malloc.1 = true → s'.blocks = 0) := by
  have hblocks := blocks_malloc s
  cases hp : s.ugProc with
  | none =>
    have heq : tklOtaEndNotify s reset = (oprtOsAdapterInvalidParm, s) := by
      unfold tklOtaEndNotify
      rw [hp]
    rw [heq]
    exact ⟨h, fun hne => absurd rfl hne⟩
  | some p =>
    unfold tklOtaEndNotify
    rw [hp]
    simp only
    cases hm : s.malloc.1 with
    | false =>
      rw [hm] at hblocks
      rw [if_neg Bool.false_ne_true]
      exact ⟨h.congr hblocks (by rw [ugProc_malloc]) (frist_malloc s), fun _ hno => nomatch hno⟩
    | true =>
      rw [if_pos rfl]
      split
      · have hzero := @release_frees s p h hp hm { s.malloc.2 with
          flash := (checksumLoop s.malloc.2 p s.malloc.2.flash 0 0).2 } rfl (frist_malloc s)
        exact ⟨hzero, fun _ _ => hzero⟩
      · have hzero : ∀ s' : Ota, s'.blocks = s.malloc.2.blocks →
            s'.fristBlockDatabuf = s.fristBlockDatabuf →
            let t := if reset then { s'.release with resets := s'.release.resets + 1 }
              else s'.release
            Balanced t ∧ t.blocks = 0 := by
          intro s' hb hf
          have hzero := release_frees h hp hm hb hf
          cases reset with
          | true => exact ⟨hzero, hzero⟩
          | false => exact ⟨hzero, hzero⟩
        obtain ⟨hbal, hnone⟩ := hzero (({ s.malloc.2 with flash := (tklFlashRead
          (checksumLoop s.malloc.2 p s.malloc.2.flash 0 0).2 p.startAddr (some ()) bufSize).2.2
          }).guardedErase p.startAddr (UInt32.ofNat bufSize) |>.guardedWrite p.startAddr _).2
          (by simp) (by simp)
        exact ⟨hbal, fun _ _ => hnone⟩

/-- A call keeps the balance if and only if it does not take the first block of a longer image. -/
theorem balanceOk_iff {s : Ota} (hv : Valid s) (h : Balanced s) (c : OtaCall) :
    (BalanceOk s c ↔ ¬TakesFirst s c) ∧ (BalanceOk s c → Balanced (otaStep s c).1) := by
  cases c with
  | startNotify n =>
    exact ⟨iff_of_true trivial (fun ht => ht), fun _ => startNotify_balanced h n⟩
  | dataProcess pack => exact ⟨dataProcess_balanced hv h pack, fun hok => hok⟩
  | endNotify reset =>
    obtain ⟨hbal, hzero⟩ := endNotify_balanced h reset
    exact ⟨iff_of_true hzero (fun ht => ht), fun _ => hbal⟩

/-- For every flash, every pattern of failures and every sequence of calls: the blocks are
    balanced behind every packet and all freed behind every end that has compared the checksum, if
    and only if no packet takes the first block of a longer image. -/
theorem ota_balance_iff (flash : FlashDev) (mallocs : List Bool) (writes : List WriteFate)
    (lowMem : Nor.Mem → Block) (cs : List OtaCall) :
    Along otaStep BalanceOk (Ota.boot flash mallocs writes lowMem) cs ↔
      Along otaStep (fun s c => ¬TakesFirst s c) (Ota.boot flash mallocs writes lowMem) cs :=
  along_congr (I := fun s => Valid s ∧ Balanced s)
    (fun _ c hI hok => ⟨otaStep_valid hI.1 c, (balanceOk_iff hI.1 hI.2 c).2 hok⟩)
    (fun _ c hI => (balanceOk_iff hI.1 hI.2 c).1)
    ⟨valid_boot flash mallocs writes lowMem, rfl⟩ cs

theorem not_firstFails {s : Ota} (hm : s.mallocs = []) : ¬FirstFails s := by
  rintro ⟨-, hfail | ⟨-, hfail⟩⟩
  · rw [malloc_nil hm] at hfail
    cases hfail
  · rw [malloc_nil (malloc_nil hm ▸ hm : s.malloc.2.mallocs = [])] at hfail
    cases hfail

/-- The first block of an image of two blocks in a packet of its own: the dummy data stay. -/
theorem ota_balance_lost :
    ¬Along otaStep BalanceOk (Ota.boot blankFlash [] [] fun _ => erasedBlock)
      [.startNotify 1, .dataProcess ⟨twoBlocksHeader, by decide⟩,
        .dataProcess ⟨List.replicate rtImgWrUnit 0x01, by rw [List.length_replicate]; decide⟩] := by
  obtain ⟨hug, hfirst, hm, hw, -⟩ :=
    @start_ok (Ota.boot blankFlash [] [] fun _ => erasedBlock) rfl 1 (by decide)
  have hv := otaStep_valid (valid_boot blankFlash [] [] fun _ => erasedBlock) (.startNotify 1)
  have hbal := startNotify_balanced (s := Ota.boot blankFlash [] [] fun _ => erasedBlock) rfl 1
  rintro ⟨-, hheader, hblock, -⟩
  rw [show (otaStep (Ota.boot blankFlash [] [] fun _ => erasedBlock) (.startNotify 1)).1 =
    (tklOtaStartNotify (Ota.boot blankFlash [] [] fun _ => erasedBlock) 1).2 from rfl]
    at hheader hblock hv
  generalize (tklOtaStartNotify (Ota.boot blankFlash [] [] fun _ => erasedBlock) 1).2 = s at *
  have hv₂ := otaStep_valid hv (.dataProcess ⟨twoBlocksHeader, by decide⟩)
  have hbal₂ := (balanceOk_iff hv hbal _).2 hheader
  refine (balanceOk_iff hv₂ hbal₂ _).1.mp hblock ?_
  rw [otaStep_accepted hug rfl accepts_twoBlocksHeader]
  refine ⟨_, ugProc_guardedErase _ _ _, rfl, (firstBlock_guardedErase _ _ _).trans hfirst, ?_, ?_,
    not_firstFails ((mallocs_guardedErase _ _ _).trans hm), ?_⟩
  · rw [List.length_replicate]
  · rw [List.length_replicate]
    decide
  · rw [writes_guardedErase]
    show ∀ f ∈ s.writes.take _, f = WriteFate.ok
    rw [hw]
    exact fun f hf => nomatch List.mem_of_mem_take hf

end ArduinoT2.Ota
