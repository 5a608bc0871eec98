import ArduinoT2.Ota.Upload

/-
  What a new session inherits from the calls before it.

  `Agree` relates the states of two runs that hold the same session on flash contents that are
  the same in a region, but may have come to them by different histories: the log, the registers
  and the heap may differ, and as long as the first block of the session is due, so may the block
  that is saved in `frist_block_databuf`. Every call keeps the relation and returns the same in
  both runs, unless it ends a session whose first block has not come. A valid header erases the
  image's part of the slot, so that from there on the region takes in the image (`step_agree`):
  with the whole flash as the region at the start two runs leave the same contents, and with no
  byte of it they still sum up and commit the same image.
-/

namespace ArduinoT2.Ota

open ArduinoT2.Vendor ArduinoT2.Adapter StepSys

/-! ## Two runs -/

/-- The two states are the same session, with no malloc to fail, and the flash is the same in
    the region `R`. The saved blocks agree when `e` holds, and otherwise from the first block of
    the session on. -/
structure Agree (e : Prop) (R : Nat → Prop) (s t : Ota) : Prop where
  cfg : s.flash.cfg = t.flash.cfg
  mem : Nor.AgreeOn R s.flash.mem t.flash.mem
  ugProc : s.ugProc = t.ugProc
  first : s.firstBlock = t.firstBlock
  frist : e ∨ s.firstBlock = false → s.fristBlockDatabuf = t.fristBlockDatabuf
  writes : s.writes = t.writes
  lowMem : s.lowMem = t.lowMem
  mallocs : s.mallocs = []
  mallocs' : t.mallocs = []

/-- Two calls with the same result, in states that agree behind them. -/
def Alike (e : Prop) (R : Nat → Prop) {α : Type} (x y : α × Ota) : Prop :=
  x.1 = y.1 ∧ Agree e R x.2 y.2

section Agree

variable {e : Prop} {R : Nat → Prop} {s t : Ota}

theorem Agree.mono {Q : Nat → Prop} (h : Agree e R s t) (hQ : ∀ a, Q a → R a) : Agree e Q s t :=
  { h with mem := h.mem.mono hQ }

/-- States with the same saved block agree in every sense. -/
theorem Agree.of_true (h : Agree True R s t) : Agree e R s t :=
  { h with frist := fun _ => h.frist (.inl trivial) }

/-- Behind the first block of a session the saved blocks agree. -/
theorem Agree.clearFirst (h : Agree True R s t) :
    Agree e R { s with firstBlock := false } { t with firstBlock := false } :=
  { h with first := rfl, frist := fun _ => h.frist (.inl trivial) }

theorem Agree.withProc (h : Agree e R s t) (q : Option UgProc) :
    Agree e R { s with ugProc := q } { t with ugProc := q } :=
  { h with ugProc := rfl }

/-- A saved block is read as it is. -/
theorem Agree.fristBytes (h : Agree e R s t) (hf : e ∨ s.firstBlock = false)
    (hsaved : s.fristBlockDatabuf.isSome) : s.fristBytes = t.fristBytes := by
  obtain ⟨blk, hblk⟩ := Option.isSome_iff_exists.mp hsaved
  rw [fristBytes_eq hblk, fristBytes_eq ((h.frist hf).symm.trans hblk)]

theorem Agree.malloc (h : Agree e R s t) :
    s.malloc.1 = true ∧ t.malloc.1 = true ∧ Agree e R s.malloc.2 t.malloc.2 := by
  rw [malloc_nil h.mallocs, malloc_nil h.mallocs']
  exact ⟨rfl, rfl, { h with }⟩

theorem Agree.freeIf (h : Agree e R s t) (buf : Bool) :
    Agree e R (s.freeIf buf) (t.freeIf buf) := by
  cases buf with
  | false => exact h
  | true => exact { h with }

theorem Agree.guardedWrite_of (h : Agree e R s t) (addr : UInt32) {src src' : List UInt8}
    (hlen : src.length = src'.length) (hsrc : Nor.BytesAgree R addr.toNat src src') :
    Alike e R (s.guardedWrite addr src) (t.guardedWrite addr src') := by
  obtain ⟨ops, hs⟩ := guardedWrite_spec s addr src
  obtain ⟨ops', ht⟩ := guardedWrite_spec t addr src'
  obtain ⟨hrc, hmem⟩ := guardedWrite_agree h.cfg h.mem h.writes addr hlen hsrc
  refine ⟨hrc, hs.executes.cfg.trans (h.cfg.trans ht.executes.cfg.symm), hmem, ?_, ?_, fun hf => ?_,
    ?_, ?_, ?_, ?_⟩
  · rw [ugProc_guardedWrite, ugProc_guardedWrite, h.ugProc]
  · rw [firstBlock_guardedWrite, firstBlock_guardedWrite, h.first]
  · rw [firstBlock_guardedWrite] at hf
    rw [frist_guardedWrite, frist_guardedWrite, h.frist hf]
  · rw [writes_guardedWrite, writes_guardedWrite, h.writes]
  · rw [lowMem_guardedWrite, lowMem_guardedWrite, h.lowMem]
  · rw [mallocs_guardedWrite, h.mallocs]
  · rw [mallocs_guardedWrite, h.mallocs']

theorem Agree.guardedWrite (h : Agree e R s t) (addr : UInt32) (src : List UInt8) :
    Alike e R (s.guardedWrite addr src) (t.guardedWrite addr src) :=
  h.guardedWrite_of addr rfl fun _ _ => rfl

theorem Agree.guardedErase (h : Agree e R s t) (addr size : UInt32) :
    Agree e R (s.guardedErase addr size) (t.guardedErase addr size) := by
  have hs := guardedErase_spec s addr size
  have ht := guardedErase_spec t addr size
  refine ⟨hs.cfg.trans (h.cfg.trans ht.cfg.symm), ?_, ?_, ?_, fun hf => ?_, ?_, ?_, ?_, ?_⟩
  · rw [hs.mem, ht.mem, h.cfg]
    exact h.mem.execAll _
  · rw [ugProc_guardedErase, ugProc_guardedErase, h.ugProc]
  · rw [firstBlock_guardedErase, firstBlock_guardedErase, h.first]
  · rw [firstBlock_guardedErase] at hf
    rw [frist_guardedErase, frist_guardedErase, h.frist hf]
  · rw [writes_guardedErase, writes_guardedErase, h.writes]
  · rw [lowMem_guardedErase, lowMem_guardedErase, h.lowMem]
  · rw [mallocs_guardedErase, h.mallocs]
  · rw [mallocs_guardedErase, h.mallocs']

/-! ## Packets -/

/-- Behind the first block the saved blocks agree. -/
theorem Agree.saveFirstBlock (h : Agree e R s t) (blk : Block) :
    ∃ s' t', saveFirstBlock s blk = .ok s' ∧ saveFirstBlock t blk = .ok t' ∧
      Agree True R s' t' := by
  have hsave : ∀ {u : Ota}, u.mallocs = [] → ∃ n, Adapter.saveFirstBlock u blk =
      .ok { u with fristBlockDatabuf := some blk, blocks := n } := by
    intro u hu
    unfold Adapter.saveFirstBlock
    split
    · exact ⟨_, rfl⟩
    · rw [malloc_nil hu]
      exact ⟨_, rfl⟩
  obtain ⟨m, hs⟩ := hsave h.mallocs
  obtain ⟨n, ht⟩ := hsave h.mallocs'
  exact ⟨_, _, hs, ht, { h with frist := fun _ => rfl }⟩

theorem Agree.writeBlock (h : Agree e R s t) (p : UgProc) (buf : Bool) (blk : Block) :
    (∃ s' t', writeBlock s p buf blk = .error s' ∧ writeBlock t p buf blk = .error t' ∧
      Agree e R s' t') ∨
    (∃ s' t' buf', writeBlock s p buf blk = .ok (s', buf') ∧
      writeBlock t p buf blk = .ok (t', buf') ∧ Agree e R s' t') := by
  unfold Adapter.writeBlock
  rw [← h.first]
  cases s.firstBlock with
  | true =>
    rw [if_pos rfl, if_pos rfl]
    obtain ⟨s₁, t₁, hs, ht, h₁⟩ := h.saveFirstBlock blk
    obtain ⟨hms, hmt, h₂⟩ := h₁.malloc
    obtain ⟨hrc, h₃⟩ := h₂.guardedWrite p.flashAddr (List.replicate rtImgWrUnit 0xFF)
    rw [hs, ht]
    dsimp only
    rw [if_pos hms, if_pos hmt, ← hrc]
    split
    · exact .inl ⟨_, _, rfl, rfl, (h₃.freeIf true).of_true⟩
    · exact .inr ⟨_, _, _, rfl, rfl, h₃.clearFirst⟩
  | false =>
    rw [if_neg Bool.false_ne_true, if_neg Bool.false_ne_true]
    obtain ⟨hrc, h₁⟩ := h.guardedWrite p.flashAddr blk.bytes
    dsimp only
    rw [← hrc]
    split
    · exact .inl ⟨_, _, rfl, rfl, h₁.freeIf buf⟩
    · exact .inr ⟨_, _, _, rfl, rfl, h₁⟩

theorem Agree.blockLoop (h : Agree e R s t) (p : UgProc) (buf : Bool) (rest : List UInt8) :
    (∃ s' t' rest', blockLoop s p buf rest = .error (s', rest') ∧
      blockLoop t p buf rest = .error (t', rest') ∧ Agree e R s' t') ∨
    (∃ s' t' p' buf' rest', blockLoop s p buf rest = .ok (s', p', buf', rest') ∧
      blockLoop t p buf rest = .ok (t', p', buf', rest') ∧ Agree e R s' t') := by
  induction hn : rest.length using Nat.strong_induction_on generalizing s t p buf rest with
  | _ n ih =>
    subst hn
    rw [Adapter.blockLoop, Adapter.blockLoop]
    split
    · rename_i hlen
      have hlt : (rest.drop rtImgWrUnit).length < rest.length := by
        simp only [List.length_drop, rtImgWrUnit] at *
        omega
      rcases h.writeBlock p buf ⟨rest.take rtImgWrUnit, List.length_take_of_le hlen⟩ with
        ⟨s₁, t₁, hs, ht, h₁⟩ | ⟨s₁, t₁, buf₁, hs, ht, h₁⟩
      · rw [hs, ht]
        exact .inl ⟨_, _, _, rfl, rfl, h₁⟩
      · rw [hs, ht]
        exact ih _ hlt (h₁.withProc (some (p.advance rtImgWrUnit))) _ buf₁ _ rfl
    · exact .inr ⟨_, _, _, _, _, rfl, rfl, h⟩

theorem Agree.finishCheck (h : Agree e R s t) (p : UgProc) (buf : Bool) (remain : Nat) :
    Alike e R (finishCheck s p buf remain) (finishCheck t p buf remain) := by
  unfold Adapter.finishCheck
  split
  · exact ⟨rfl, (h.withProc _).freeIf buf⟩
  · exact ⟨rfl, h⟩

theorem Agree.recvTail (h : Agree e R s t) (p : UgProc) (buf : Bool) (rest : List UInt8) :
    Alike e R (recvTail s p buf rest) (recvTail t p buf rest) := by
  unfold Adapter.recvTail
  split
  · obtain ⟨hrc, h₁⟩ := h.guardedWrite p.flashAddr rest
    dsimp only
    rw [← hrc]
    split
    · exact ⟨rfl, h₁.freeIf buf⟩
    · exact (h₁.withProc _).finishCheck _ buf 0
  · exact h.finishCheck p buf rest.length

theorem Agree.recvImgData (h : Agree e R s t) (p : UgProc) (data : List UInt8) :
    Alike e R (recvImgData s p data) (recvImgData t p data) := by
  unfold Adapter.recvImgData
  split
  · exact ⟨rfl, h⟩
  · rcases h.blockLoop p false data with ⟨s₁, t₁, rest, hs, ht, h₁⟩ |
      ⟨s₁, t₁, p₁, buf, rest, hs, ht, h₁⟩
    · rw [hs, ht]
      exact ⟨rfl, h₁⟩
    · rw [hs, ht]
      exact h₁.recvTail p₁ buf rest

theorem Agree.recvHeader (h : Agree e R s t) (p : UgProc) (data : List UInt8) :
    Alike e R (recvHeader s p data) (recvHeader t p data) := by
  unfold Adapter.recvHeader
  split
  · exact ⟨rfl, h⟩
  · dsimp only
    split
    · exact ⟨rfl, h.withProc _⟩
    · split
      · exact ⟨rfl, h.withProc _⟩
      · exact ⟨rfl, (h.withProc _).guardedErase _ _⟩

theorem Agree.dataProcess (h : Agree e R s t) (data : List UInt8) :
    Alike e R (tklOtaDataProcess s data) (tklOtaDataProcess t data) := by
  unfold tklOtaDataProcess
  rw [← h.ugProc]
  split
  · exact ⟨rfl, h⟩
  · split
    · exact h.recvHeader _ data
    · exact h.recvImgData _ data
    · exact ⟨rfl, h⟩

/-! ## Start and end -/

theorem Agree.startNotify (h : Agree e R s t) (n : UInt32) :
    Alike e R (tklOtaStartNotify s n) (tklOtaStartNotify t n) := by
  unfold tklOtaStartNotify
  split
  · exact ⟨rfl, h⟩
  · rw [← h.ugProc]
    split
    · exact ⟨rfl, { h with
        ugProc := rfl, first := rfl, frist := fun hf => h.frist (hf.imp_right nofun) }⟩
    · obtain ⟨hms, hmt, h₁⟩ := h.malloc
      dsimp only
      rw [if_pos hms, if_pos hmt]
      exact ⟨rfl, { h₁ with
        ugProc := rfl, first := rfl, frist := fun hf => h₁.frist (hf.imp_right nofun) }⟩

/-- An end comes behind the first block of its session, or upon an image of no bytes that do
    not add up. -/
def EndsBehindFirst (s : Ota) : OtaCall → Prop
  | .endNotify _ => ∀ p, s.ugProc = some p →
      s.firstBlock = false ∨ p.fileHeader.binLen = 0 ∧ p.fileHeader.binSum ≠ 0
  | _ => True

theorem Agree.release (h : Agree e R s t) : Agree True R s.release t.release :=
  { cfg := by simpa using h.cfg
    mem := by simpa only [flash_release] using h.mem
    ugProc := rfl
    first := by simpa [Ota.release, Ota.free] using h.first
    frist := fun _ => rfl
    writes := by simpa [Ota.release, Ota.free] using h.writes
    lowMem := by simpa [Ota.release, Ota.free] using h.lowMem
    mallocs := by simpa [Ota.release, Ota.free] using h.mallocs
    mallocs' := by simpa [Ota.release, Ota.free] using h.mallocs' }

theorem Agree.reset (h : Agree e R s t) (reset : Bool) :
    Alike e R (oprtOk, if reset then { s with resets := s.resets + 1 } else s)
      (oprtOk, if reset then { t with resets := t.resets + 1 } else t) := by
  cases reset with
  | true => exact ⟨rfl, { h with }⟩
  | false => exact ⟨rfl, h⟩

/-- Reading the flash changes nothing that the relation looks at. -/
theorem Agree.withReads (h : Agree e R s t) {d d' : FlashDev}
    (hs : ∀ v, Executes s.flash [] v s.flash.protectValue d)
    (ht : ∀ v, Executes t.flash [] v t.flash.protectValue d') :
    Agree e R { s with flash := d } { t with flash := d' } :=
  { h with
    cfg := (hs 0).cfg.trans (h.cfg.trans (ht 0).cfg.symm)
    mem := by
      rw [(hs 0).mem, (ht 0).mem]
      exact h.mem }

/-- The image that is summed up is the same when the region takes it in. -/
theorem Agree.storedImage (h : Agree e R s t) {p : UgProc}
    (hR : ∀ i, i < p.fileHeader.binLen.toNat → R (p.startAddr.toNat + i))
    (hf : (e ∨ s.firstBlock = false) ∧ s.fristBlockDatabuf.isSome ∨ p.fileHeader.binLen = 0) :
    storedImage s p = storedImage t p := by
  unfold Ota.storedImage
  rcases hf with ⟨hf, hsaved⟩ | hzero
  · rw [h.fristBytes hf hsaved, h.mem.read hR]
  · rw [hzero]
    rfl

/-- The first sector is read, erased and written back behind the saved block. -/
theorem Agree.commit (h : Agree e R s t) (hf : e ∨ s.firstBlock = false)
    (hsaved : s.fristBlockDatabuf.isSome) (addr : UInt32) :
    let commit := fun u : Ota =>
      let r := tklFlashRead u.flash addr (some ()) bufSize
      let u := ({ u with flash := r.2.2 }).guardedErase addr (UInt32.ofNat bufSize)
      u.guardedWrite addr (u.fristBytes ++ r.2.1.drop rtImgWrUnit)
    Alike e R (commit s) (commit t) := by
  have h₁ := h.withReads (executes_read s.flash addr (some ()) bufSize)
    (executes_read t.flash addr (some ()) bufSize)
  have h₂ := h₁.guardedErase addr (UInt32.ofNat bufSize)
  have hbytes := h₂.fristBytes (by rw [firstBlock_guardedErase]; exact hf)
    (by rw [frist_guardedErase]; exact hsaved)
  dsimp only
  rw [← hbytes, tklFlashRead_bytes, tklFlashRead_bytes, Nor.drop_read _ _ (by decide),
    Nor.drop_read _ _ (by decide)]
  refine h₂.guardedWrite_of addr (by simp only [List.length_append, Nor.length_read]) ?_
  refine .append _ _ ?_
  rw [length_fristBytes]
  exact h.mem.bytesAgree _ _

theorem Agree.endNotify (h : Agree e R s t) (hv : Valid s) (reset : Bool)
    (hR : ∀ p, s.ugProc = some p →
      ∀ i, i < p.fileHeader.binLen.toNat → R (p.startAddr.toNat + i))
    (hc : EndsBehindFirst s (.endNotify reset)) :
    Alike e R (tklOtaEndNotify s reset) (tklOtaEndNotify t reset) := by
  obtain ⟨hms, hmt, h₁⟩ := h.malloc
  unfold tklOtaEndNotify
  rw [← h.ugProc]
  split
  · exact ⟨rfl, h⟩
  · rename_i p hp
    have hfits := (hv p hp).fits
    have hstored : Ota.storedImage s.malloc.2 p = Ota.storedImage t.malloc.2 p := by
      refine h₁.storedImage (hR p hp) ?_
      rw [firstBlock_malloc, frist_malloc]
      exact (hc p hp).imp (fun hf => ⟨.inr hf, (hv p hp).saved hf⟩) And.left
    have h₂ := h₁.withReads (checksumLoop_reads s.malloc.2 p s.malloc.2.flash 0 0)
      (checksumLoop_reads t.malloc.2 p t.malloc.2.flash 0 0)
    dsimp only
    rw [if_pos hms, if_pos hmt, checksumLoop_spec hfits, checksumLoop_spec hfits, ← hstored]
    split
    · exact ⟨rfl, h₂.release.of_true⟩
    · rename_i hsum
      -- an image of no bytes has the sum 0, so the first block has come
      have hfr : s.firstBlock = false := by
        refine (hc p hp).resolve_right fun ⟨hzero, hne⟩ => hsum fun heq => hne ?_
        rw [← heq, Ota.storedImage, hzero]
        rfl
      exact (h₂.commit (.inr ((firstBlock_malloc s).trans hfr))
        ((frist_malloc s).symm ▸ (hv p hp).saved hfr) p.startAddr).2.release.of_true.reset reset

/-! ## One call -/

/-- The address belongs to the image that the session takes in. -/
def ImageAt (s : Ota) (a : Nat) : Prop :=
  ∃ p, s.ugProc = some p ∧
    p.startAddr.toNat ≤ a ∧ a < p.startAddr.toNat + p.fileHeader.binLen.toNat

/-- What an end sums up, if there is a session, and what it leaves in the image's part of the
    slot, if it returns OPRT_OK. -/
def endImages (s : Ota) : OtaCall → List (List UInt8 × Option (List UInt8))
  | .endNotify reset =>
    match s.ugProc with
    | none => []
    | some p =>
      let r := tklOtaEndNotify s reset
      let image := Nor.read r.2.flash.mem p.startAddr.toNat p.fileHeader.binLen.toNat
      [(storedImage s p, if r.1 = oprtOk then some image else none)]
  | _ => []

/-- No call but one with a valid header adds to the image. -/
theorem imageAt_of_step (hv : Valid s) (c : OtaCall) :
    (∃ pack p, c = .dataProcess pack ∧ s.ugProc = some p ∧ p.stat = .recvHeader ∧
      Accepts pack.data) ∨ ∀ a, ImageAt (otaStep s c).1 a → ImageAt s a := by
  cases (otaStep_step hv c).outcome with
  | same hug => exact .inr fun a ⟨p, hp, ha⟩ => ⟨p, hug ▸ hp, ha⟩
  | fresh hug =>
    refine .inr fun a ⟨p, hp, hle, hlt⟩ => ?_
    obtain rfl := Option.some.inj (hug.symm.trans hp)
    exact absurd hlt (Nat.not_lt.mpr hle)
  | header pack hc p hp hst hacc => exact .inl ⟨pack, p, hc, hp, hst, hacc⟩
  | image pack _ p hp _ k hk =>
    -- the session goes on with the same header at the same address
    refine .inr fun a ⟨q, hq, ha⟩ => ⟨p, hp, ?_⟩
    rcases hk.ugProc with ⟨hug, _⟩ | ⟨m, _, _, hug, _⟩
    · obtain rfl := Option.some.inj (hug.symm.trans hq)
      exact ha
    · obtain rfl := Option.some.inj (hug.symm.trans hq)
      exact ha
  | closed hug =>
    refine .inr fun a ⟨p, hp, _⟩ => ?_
    rw [hug] at hp
    cases hp

/-- The erase behind a valid header makes the flash the same where the image will be. -/
theorem Agree.guardedErase_slot (h : Agree e R s t) (hslot : SlotFits s.flash) {binLen : UInt32}
    (hsize : binLen.toNat < otaMaxBinSize) :
    Agree e (fun a => R a ∨ ugStartAddr.toNat ≤ a ∧ a < ugStartAddr.toNat + binLen.toNat)
      (s.guardedErase ugStartAddr binLen) (t.guardedErase ugStartAddr binLen) := by
  have h₁ := h.guardedErase ugStartAddr binLen
  refine { h₁ with mem := fun a ha => ?_ }
  rcases ha with ha | ⟨hle, hlt⟩
  · exact h₁.mem a ha
  · have hs := guardedErase_spec s ugStartAddr binLen
    have ht := guardedErase_spec t ugStartAddr binLen
    unfold SlotFits at hslot
    simp only [ugStartAddr_toNat, otaMaxBinSize] at *
    have hsect := @eraseOps_eq_sectors s.flash ugStartAddr binLen (by omega)
      (by rw [ugStartAddr_toNat]; omega)
    rw [hs.mem, ht.mem, ← h.cfg, hsect, Nor.execAll_sectors, Nor.execAll_sectors,
      ugStartAddr_toNat, if_pos (by omega), if_pos (by omega)]

/-- A call keeps two runs together: it returns the same, sums up and commits the same, and the
    flash stays the same in the region `R` and where the image is. -/
theorem step_agree (c : OtaCall) (hv : Valid s) (h : Agree False (fun a => R a ∨ ImageAt s a) s t)
    (hslot : SlotFits s.flash ∨ ∀ a, R a) (hc : EndsBehindFirst s c) :
    (otaStep s c).2 = (otaStep t c).2 ∧ endImages s c = endImages t c ∧
      Agree False (fun a => R a ∨ ImageAt (otaStep s c).1 a) (otaStep s c).1 (otaStep t c).1 := by
  have hR : ∀ p, s.ugProc = some p → ∀ i, i < p.fileHeader.binLen.toNat →
      R (p.startAddr.toNat + i) ∨ ImageAt s (p.startAddr.toNat + i) :=
    fun p hp i hi => .inr ⟨p, hp, Nat.le_add_right _ _, Nat.add_lt_add_left hi _⟩
  have hstep : Alike False (fun a => R a ∨ ImageAt s a) ((otaStep s c).2, (otaStep s c).1)
      ((otaStep t c).2, (otaStep t c).1) := by
    cases c with
    | startNotify n =>
      obtain ⟨hrc, h₁⟩ := h.startNotify n
      exact ⟨congrArg (OtaRet.mk · none) hrc, h₁⟩
    | dataProcess pack => exact h.dataProcess pack.data
    | endNotify reset =>
      obtain ⟨hrc, h₁⟩ := h.endNotify hv reset hR hc
      exact ⟨congrArg (OtaRet.mk · none) hrc, h₁⟩
  refine ⟨hstep.1, ?_, ?_⟩
  · cases c with
    | startNotify n => rfl
    | dataProcess pack => rfl
    | endNotify reset =>
      obtain ⟨hrc, h₁⟩ := h.endNotify hv reset hR hc
      unfold endImages
      dsimp only
      rw [← h.ugProc]
      cases hp : s.ugProc with
      | none => rfl
      | some p =>
        dsimp only
        rw [← hrc, h₁.mem.read (hR p hp), h.storedImage (hR p hp)
          ((hc p hp).imp (fun hf => ⟨.inr hf, (hv p hp).saved hf⟩) And.left)]
  · rcases imageAt_of_step hv c with ⟨pack, p, rfl, hp, hst, hacc⟩ | himage
    · rcases hslot with hslot | hall
      · have h₁ := h.withProc (some (accepted _ hacc.size))
        rw [otaStep_accepted hp hst hacc, otaStep_accepted (h.ugProc ▸ hp) hst hacc]
        refine (h₁.guardedErase_slot hslot hacc.size).mono fun a ha => ?_
        rcases ha with ha | ⟨q, hq, ha⟩
        · exact .inl (.inl ha)
        · rw [ugProc_guardedErase] at hq
          obtain rfl := Option.some.inj hq
          exact .inr ha
      · exact hstep.2.mono fun a _ => .inl (hall a)
    · exact hstep.2.mono fun a ha => ha.imp_right (himage a)

/-- A run keeps two runs together whose ends all come behind a first block. -/
theorem run_together {cs : List OtaCall} (hv : Valid s)
    (h : Agree False (fun a => R a ∨ ImageAt s a) s t) (hslot : SlotFits s.flash ∨ ∀ a, R a)
    (hc : Along otaStep EndsBehindFirst s cs) :
    outputs otaStep s cs = outputs otaStep t cs ∧
      collect otaStep endImages s cs = collect otaStep endImages t cs ∧
      Nor.AgreeOn R (final otaStep s cs).flash.mem (final otaStep t cs).flash.mem := by
  induction cs generalizing s t with
  | nil => exact ⟨rfl, rfl, h.mem.mono fun _ => .inl⟩
  | cons c cs ih =>
    obtain ⟨hout, himages, h₁⟩ := step_agree c hv h hslot hc.1
    have hslot' : SlotFits (otaStep s c).1.flash ∨ ∀ a, R a := by
      refine hslot.imp_left fun hs => ?_
      unfold SlotFits at *
      rwa [(otaStep_guarded hv c).cfg]
    obtain ⟨houts, hcollect, hmem⟩ := ih (otaStep_valid hv c) h₁ hslot' hc.2
    refine ⟨?_, ?_, hmem⟩
    · rw [outputs_cons, outputs_cons, hout, houts]
    · rw [collect_cons, collect_cons, himages, hcollect]

end Agree

/-! ## A new session behind two histories -/

/-- What a read at address 0 sees is not a matter of the calls. -/
theorem lowMem_final {s : Ota} (h : Valid s) (cs : List OtaCall) :
    (final otaStep s cs).lowMem = s.lowMem :=
  (final_of_inv (I := fun t => Valid t ∧ t.lowMem = s.lowMem)
    (fun _ c ht => ⟨otaStep_valid ht.1 c, (otaStep_step ht.1 c).lowMem.trans ht.2⟩) ⟨h, rfl⟩ cs).2

/-- A start makes two states agree whose flash contents are the same in a region. -/
theorem agree_start {R : Nat → Prop} {s t : Ota} (hcfg : s.flash.cfg = t.flash.cfg)
    (hmem : Nor.AgreeOn R s.flash.mem t.flash.mem) (hwrites : s.writes = t.writes)
    (hlow : s.lowMem = t.lowMem) (hs : s.mallocs = []) (ht : t.mallocs = []) {n : UInt32}
    (hn : n ≠ 0) :
    let s' := (tklOtaStartNotify s n).2
    Agree False (fun a => R a ∨ ImageAt s' a) s' (tklOtaStartNotify t n).2 := by
  have hstart : ∀ {u : Ota}, u.mallocs = [] → ∃ m, tklOtaStartNotify u n =
      (oprtOk, { u with ugProc := some .zero, firstBlock := true, blocks := m }) := by
    intro u hu
    unfold tklOtaStartNotify
    rw [if_neg hn]
    split
    · exact ⟨_, rfl⟩
    · rw [malloc_nil hu]
      exact ⟨_, rfl⟩
  obtain ⟨_, hs'⟩ := hstart hs
  obtain ⟨_, ht'⟩ := hstart ht
  dsimp only
  rw [hs', ht']
  refine ⟨hcfg, fun a ha => ha.elim (hmem a) fun ⟨p, hp, hle, hlt⟩ => ?_, rfl, rfl,
    fun hf => hf.elim False.elim nofun, hwrites, hlow, hs, ht⟩
  obtain rfl := Option.some.inj hp
  exact absurd hlt (Nat.not_lt.mpr hle)

/-- Two histories, with any packets and failures, that leave the same flash contents, and a
    start behind each. Any calls behind the start that end no session before its first block
    return the same and do the same to the flash; and they return what they return behind a
    start with no history, sum up the image that they sum up there and commit the one that they
    commit there, whatever the flash holds: nothing of an abandoned image is in it. -/
theorem session_independent (flash₁ flash₂ : FlashDev) (mallocs₁ mallocs₂ : List Bool)
    (writes₁ writes₂ : List WriteFate) (lowMem : Nor.Mem → Block) (history₁ history₂ : List OtaCall)
    {n : UInt32} (hn : n ≠ 0) (cs : List OtaCall) :
    let s := final otaStep (Ota.boot flash₁ mallocs₁ writes₁ lowMem) history₁
    let t := final otaStep (Ota.boot flash₂ mallocs₂ writes₂ lowMem) history₂
    s.flash.cfg = t.flash.cfg → s.flash.mem = t.flash.mem → s.writes = t.writes →
    s.mallocs = [] → t.mallocs = [] →
    Along otaStep EndsBehindFirst (tklOtaStartNotify s n).2 cs →
    outputs otaStep (tklOtaStartNotify s n).2 cs = outputs otaStep (tklOtaStartNotify t n).2 cs ∧
      (final otaStep (tklOtaStartNotify s n).2 cs).flash.mem =
        (final otaStep (tklOtaStartNotify t n).2 cs).flash.mem ∧
      ∀ flash₀ : FlashDev, flash₀.cfg = s.flash.cfg → SlotFits flash₀ →
        let u := Ota.boot flash₀ [] s.writes lowMem
        outputs otaStep (tklOtaStartNotify s n).2 cs =
            outputs otaStep (tklOtaStartNotify u n).2 cs ∧
          collect otaStep endImages (tklOtaStartNotify s n).2 cs =
            collect otaStep endImages (tklOtaStartNotify u n).2 cs := by
  intro s t hcfg hmem hwrites hms hmt hc
  have hlow : s.lowMem = lowMem := lowMem_final (valid_boot _ _ _ _) _
  have hlow' : t.lowMem = lowMem := lowMem_final (valid_boot _ _ _ _) _
  have hvalid : Valid (tklOtaStartNotify s n).2 :=
    otaStep_valid (final_valid (valid_boot _ _ _ _) history₁) (.startNotify n)
  obtain ⟨houts, _, hfinal⟩ := run_together (R := fun _ => True) hvalid
    (agree_start hcfg (fun a _ => congrFun hmem a) hwrites (hlow.trans hlow'.symm) hms hmt hn)
    (.inr fun _ => trivial) hc
  refine ⟨houts, funext fun a => hfinal a trivial, fun flash₀ hcfg₀ hslot => ?_⟩
  have hslot' : SlotFits (tklOtaStartNotify s n).2.flash := by
    rw [(tklOtaStartNotify_cases s n).1]
    unfold SlotFits at *
    rwa [← hcfg₀]
  -- no byte of the flash has to be the same
  obtain ⟨houts₀, hcollect, _⟩ := run_together (R := fun _ => False) hvalid
    (agree_start (t := Ota.boot flash₀ [] s.writes lowMem) hcfg₀.symm (fun _ ha => ha.elim) rfl
      hlow hms rfl hn) (.inl hslot') hc
  exact ⟨houts₀, hcollect⟩

/-- The packet with the sample header. -/
def headerPack : OtaPack := ⟨sampleHeader, length_sampleHeader⟩

/-- A start and the sample header, behind any history. -/
theorem sample_header {u : Ota} (hm : u.mallocs = []) :
    let s := (tklOtaStartNotify u 1).2
    otaStep s (.dataProcess headerPack) =
      (({ s with ugProc := some (accepted (fileHeaderOf sampleHeader)
          accepts_sampleHeader.size) }).guardedErase ugStartAddr 512, ⟨oprtOk, some 0⟩) := by
  intro s
  have hdp := dataProcess_accepts (start_ok hm (by decide : (1 : UInt32) ≠ 0)).1 rfl rfl
    accepts_sampleHeader []
  rw [List.append_nil] at hdp
  unfold otaStep
  dsimp only
  rw [show headerPack.data = sampleHeader from rfl, hdp]
  rfl

/-- An end behind the sample header sums up the saved block. -/
theorem sample_end {s : Ota} {p : UgProc} (hm : s.mallocs = []) (hs : Session s p)
    (hp : s.ugProc = some p) (hhdr : p.fileHeader = fileHeaderOf sampleHeader) (reset : Bool) :
    (tklOtaEndNotify s reset).1 = oprtOk ↔ addBytes 0 s.fristBytes = 0x200 := by
  have hsum : SumMatches s p ↔ addBytes 0 s.fristBytes = 0x200 := by
    have hlen : p.fileHeader.binLen.toNat = rtImgWrUnit := by rw [hhdr]; decide
    have hbin : p.fileHeader.binSum = 0x200 := by rw [hhdr]; decide
    unfold SumMatches Ota.storedImage
    rw [hlen, hbin, List.drop_eq_nil_of_le (Nat.le_of_eq (Nor.length_read _ _ _)), List.append_nil,
      List.take_of_length_le (Nat.le_of_eq (length_fristBytes s))]
  rw [← hsum]
  rcases tklOtaEndNotify_cases reset (fun q hq =>
    Option.some.inj (hp.symm.trans hq) ▸ hs.fits) with ⟨hnone, _⟩ |
    ⟨q, hq, ⟨hno, _⟩ | ⟨_, hbad, hrc, _⟩ | ⟨_, hgood, hrc, _⟩⟩
  · rw [hp] at hnone
    cases hnone
  · rw [malloc_nil hm] at hno
    cases hno
  · obtain rfl := Option.some.inj (hp.symm.trans hq)
    rw [hrc]
    exact ⟨fun h => absurd h (by decide), fun h => absurd h hbad⟩
  · obtain rfl := Option.some.inj (hp.symm.trans hq)
    exact ⟨fun _ => hgood, fun _ => hrc⟩

/-- A session that is begun with the sample header and ended at once, behind any history: it
    succeeds when the block that the history has left adds up. -/
theorem sample_outputs {u : Ota} (hm : u.mallocs = []) {bs : List UInt8}
    (hbs : ∀ v : Ota, v.fristBlockDatabuf = u.fristBlockDatabuf → v.lowMem = u.lowMem →
      v.fristBytes = bs) :
    ∃ rc, outputs otaStep (tklOtaStartNotify u 1).2 [.dataProcess headerPack, .endNotify false] =
      [⟨oprtOk, some 0⟩, ⟨rc, none⟩] ∧ (rc = oprtOk ↔ addBytes 0 bs = 0x200) := by
  have hstart := start_ok hm (by decide : (1 : UInt32) ≠ 0)
  have hfr := (tklOtaStartNotify_cases u 1).2.1
  have hlow := (startNotify_step u 1).lowMem
  rw [outputs_cons, sample_header hm]
  generalize (tklOtaStartNotify u 1).2 = s at hstart hfr hlow
  obtain ⟨_, hfirst, hm', _⟩ := hstart
  refine ⟨_, rfl, ?_⟩
  rw [sample_end (by rw [mallocs_guardedErase]; exact hm')
    (session_accepted _ (by rw [firstBlock_guardedErase]; exact hfirst))
    (ugProc_guardedErase _ _ _) rfl, hbs]
  · rw [frist_guardedErase]
    exact hfr
  · rw [lowMem_guardedErase]
    exact hlow

/-- A session on an erased flash that is abandoned behind the first block of the sample image. -/
def abandonedState : Ota :=
  final otaStep (Ota.boot blankFlash [] [] fun _ => erasedBlock)
    (sampleCalls ++ [OtaCall.dataProcess samplePack])

theorem abandonedState_eq :
    abandonedState = (otaStep sampleState (.dataProcess samplePack)).1 := by
  unfold abandonedState sampleState
  rw [final_append, final_cons, final_nil]

/-- It leaves the flash erased, and its first block. -/
theorem abandonedState_spec : abandonedState.flash.cfg = blankFlash.cfg ∧
    abandonedState.flash.mem = blankFlash.mem ∧ abandonedState.writes = [] ∧
    abandonedState.mallocs = [] ∧ abandonedState.firstBlock = false ∧
    ∃ blk, abandonedState.fristBlockDatabuf = some blk ∧ blk.bytes = samplePack.data := by
  have hfirst := sampleState_firstBlock
  have hcfg := sampleState_cfg
  have hlen := length_samplePack
  obtain ⟨s', hok, heq⟩ := recvImgData_ok sampleState_mallocs sampleState_writes sampleState_ugProc
    (fun _ => rfl) (by decide) (show _ + samplePack.data.length ≤ _ by rw [hlen]; decide)
  have hs : abandonedState = s' := by
    rw [abandonedState_eq, otaStep, dataProcess_image sampleState_ugProc rfl, heq]
  rw [hs]
  refine ⟨hok.cfg.trans hcfg, ?_, hok.writesNil, hok.mallocs, ?_, ?_⟩
  · rw [hok.mem (by decide) (by rw [hcfg, hlen]; decide), hfirst, sampleState_mem]
    unfold programBlocks
    rw [List.drop_eq_nil_of_le, Nor.program_nil]
    exact Nat.le_trans (List.length_take_le' _ _) (Nat.le_of_eq hlen)
  · rw [hok.first, hfirst, hlen]
    rfl
  · have hfr := hok.frist
    rw [hfirst, if_pos rfl, hlen] at hfr
    obtain ⟨blk, hblk, hsome⟩ := hfr (by decide)
    refine ⟨blk, hsome, ?_⟩
    rw [hblk, List.take_of_length_le (Nat.le_of_eq hlen)]

theorem addBytes_replicate (n : Nat) (b : UInt8) :
    (addBytes 0 (List.replicate n b)).toNat = n * b.toNat % 2 ^ 32 := by
  rw [toNat_addBytes, List.map_replicate, List.sum_replicate_nat, UInt32.toNat_zero, Nat.zero_add]

/-- Behind the sample header and its image the first block has come, whatever the history. -/
theorem sample_firstBlock {u : Ota} (hm : u.mallocs = []) (hw : u.writes = []) :
    let s := (otaStep (tklOtaStartNotify u 1).2 (.dataProcess headerPack)).1
    (otaStep s (.dataProcess samplePack)).1.firstBlock = false := by
  obtain ⟨_, _, hm', hw', _⟩ := start_ok hm (by decide : (1 : UInt32) ≠ 0)
  have hlen := length_samplePack
  dsimp only
  rw [sample_header hm]
  generalize (tklOtaStartNotify u 1).2 = s at hm' hw'
  have hug := ugProc_guardedErase { s with
    ugProc := some (accepted (fileHeaderOf sampleHeader) accepts_sampleHeader.size) }
    ugStartAddr 512
  dsimp only at hug ⊢
  obtain ⟨s', hok, heq⟩ := recvImgData_ok (by rw [mallocs_guardedErase]; exact hm')
    (by rw [writes_guardedErase]; exact hw'.trans hw) hug (fun _ => rfl) (by decide)
    (show _ + samplePack.data.length ≤ _ by rw [hlen]; decide)
  rw [otaStep, dataProcess_image hug rfl, heq]
  dsimp only
  rw [hok.first, hlen]
  exact Bool.and_false _

/-- A flash that is full of another image. -/
def staleFlash : FlashDev := { blankFlash with mem := fun _ => 0x5A }

/-- A whole session behind the abandoned one, behind the boot, and on a flash that is full of
    another image. -/
theorem session_independent_sample :
    let s := final otaStep (Ota.boot blankFlash [] [] fun _ => erasedBlock) []
    let u := Ota.boot staleFlash [] [] fun _ => erasedBlock
    let cs := [.dataProcess headerPack, .dataProcess samplePack, .endNotify true]
    outputs otaStep (tklOtaStartNotify abandonedState 1).2 cs =
        outputs otaStep (tklOtaStartNotify s 1).2 cs ∧
      (final otaStep (tklOtaStartNotify abandonedState 1).2 cs).flash.mem =
        (final otaStep (tklOtaStartNotify s 1).2 cs).flash.mem ∧
      collect otaStep endImages (tklOtaStartNotify abandonedState 1).2 cs =
        collect otaStep endImages (tklOtaStartNotify u 1).2 cs := by
  obtain ⟨hcfg, hmem, hw, hm, _⟩ := abandonedState_spec
  have h := @session_independent blankFlash blankFlash [] [] [] [] (fun _ => erasedBlock)
    (sampleCalls ++ [.dataProcess samplePack]) [] 1 (by decide)
    [.dataProcess headerPack, .dataProcess samplePack, .endNotify true]
  dsimp only at h ⊢
  rw [final_nil] at h ⊢
  rw [← abandonedState] at h
  obtain ⟨houts, hfinal, hclean⟩ := h hcfg hmem hw hm rfl
    ⟨trivial, trivial, fun _ _ => .inl (sample_firstBlock hm hw), trivial⟩
  rw [hw] at hclean
  exact ⟨houts, hfinal, (hclean staleFlash hcfg.symm (by unfold SlotFits; decide)).2⟩

/-- A session that is ended behind its header fails behind the boot and succeeds behind the
    abandoned one, whose first block it commits. -/
theorem session_dependent :
    let s := final otaStep (Ota.boot blankFlash [] [] fun _ => erasedBlock) []
    let cs := [.dataProcess headerPack, .endNotify false]
    s.flash.cfg = abandonedState.flash.cfg ∧ s.flash.mem = abandonedState.flash.mem ∧
      s.writes = abandonedState.writes ∧ s.mallocs = [] ∧ abandonedState.mallocs = [] ∧
      outputs otaStep (tklOtaStartNotify s 1).2 cs ≠
        outputs otaStep (tklOtaStartNotify abandonedState 1).2 cs := by
  obtain ⟨hcfg, hmem, hw, hm, _, blk, hsome, hblk⟩ := abandonedState_spec
  refine ⟨hcfg.symm, hmem.symm, hw.symm, rfl, hm, fun heq => ?_⟩
  obtain ⟨rc, hout, hrc⟩ := @sample_outputs (final otaStep
    (Ota.boot blankFlash [] [] fun _ => erasedBlock) []) rfl erasedBlock.bytes
    (fun v hv hl => by
      unfold Ota.fristBytes
      rw [hv, hl]
      rfl)
  obtain ⟨rc', hout', hrc'⟩ := @sample_outputs abandonedState hm samplePack.data
    (fun v hv _ => by rw [fristBytes_eq (hv.trans hsome), hblk])
  rw [hout, hout'] at heq
  have hsame : rc = rc' := by
    simpa using heq
  have hok : addBytes 0 samplePack.data = 0x200 := by
    refine UInt32.toNat_inj.mp ?_
    rw [samplePack, addBytes_replicate]
    rfl
  have hbad : addBytes 0 erasedBlock.bytes ≠ 0x200 := by
    intro h
    have := (addBytes_replicate rtImgWrUnit 0xFF).symm.trans (congrArg UInt32.toNat h)
    exact absurd this (by decide)
  exact hbad (hrc.mp (hsame.trans (hrc'.mpr hok)))

end ArduinoT2.Ota
