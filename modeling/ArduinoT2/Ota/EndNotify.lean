import ArduinoT2.Ota.Packet

/-
  What `tkl_ota_end_notify` does.

  `storedImage` is the image that the call sums up: the bytes of the slot behind the saved first
  block. `checksumLoop_spec` shows that the loop over chunks of `BUF_SIZE` computes its byte sum,
  and `tklOtaEndNotify_cases` lists the four ways the call goes.
-/

namespace ArduinoT2.Ota

open ArduinoT2.Vendor ArduinoT2.Adapter

/-! ## The image that is summed up -/

/-- The saved first block and behind it the contents of the slot, `bin_len` bytes in all. -/
def storedImage (s : Ota) (p : UgProc) : List UInt8 :=
  (s.fristBytes ++ (Nor.read s.flash.mem p.startAddr.toNat p.fileHeader.binLen.toNat).drop
    rtImgWrUnit).take p.fileHeader.binLen.toNat

/-- The bytes of the stored image add up to `bin_sum`. -/
def SumMatches (s : Ota) (p : UgProc) : Prop :=
  addBytes 0 (storedImage s p) = p.fileHeader.binSum

instance (s : Ota) (p : UgProc) : Decidable (SumMatches s p) := inferInstanceAs (Decidable (_ = _))

theorem addBytes_append (sum : UInt32) (xs ys : List UInt8) :
    addBytes sum (xs ++ ys) = addBytes (addBytes sum xs) ys := List.foldl_append

@[simp] theorem addBytes_nil (sum : UInt32) : addBytes sum [] = sum := rfl

/-- The sum of the bytes modulo `2^32`. -/
theorem toNat_addBytes (sum : UInt32) (bs : List UInt8) :
    (addBytes sum bs).toNat = (sum.toNat + (bs.map UInt8.toNat).sum) % 2 ^ 32 := by
  induction bs generalizing sum with
  | nil => simp [Nat.mod_eq_of_lt sum.toNat_lt]
  | cons b bs ih =>
    rw [show addBytes sum (b :: bs) = addBytes (sum + b.toUInt32) bs from rfl, ih,
      UInt32.toNat_add, UInt8.toNat_toUInt32, List.map_cons, List.sum_cons]
    omega

@[simp] theorem length_fristBytes (s : Ota) : s.fristBytes.length = rtImgWrUnit := by
  unfold Ota.fristBytes
  split
  · exact Block.len _
  · exact Block.len _

/-! ## The checksum loop -/

/-- Reads leave the contents, the log and the protection. -/
theorem checksumLoop_reads (s : Ota) (p : UgProc) (flash : FlashDev) (i : Nat) (sum : UInt32)
    (v : BitVec 16) : Executes flash [] v flash.protectValue (checksumLoop s p flash i sum).2 := by
  fun_induction checksumLoop s p flash i sum with
  | case1 flash i sum binLen h rlen r tempbuf ih =>
    have hr := executes_read flash (p.startAddr + UInt32.ofNat i) (some ()) rlen v
    have hex := hr.trans ih
    rw [hr.protect] at hex
    exact hex
  | case2 => exact ⟨rfl, rfl, by simp, rfl⟩

/-- Behind the first chunk the loop adds the bytes of the slot. -/
theorem checksumLoop_tail {s : Ota} {p : UgProc}
    (hfit : p.startAddr.toNat + p.fileHeader.binLen.toNat < 2 ^ 32) (flash : FlashDev) (i : Nat)
    (sum : UInt32) (hi : 0 < i) : (checksumLoop s p flash i sum).1 =
      addBytes sum
        (Nor.read flash.mem (p.startAddr.toNat + i) (p.fileHeader.binLen.toNat - i)) := by
  fun_induction checksumLoop s p flash i sum with
  | case1 flash i sum binLen h rlen r tempbuf ih =>
    have hmem : r.2.2.mem = flash.mem :=
      (executes_read flash (p.startAddr + UInt32.ofNat i) (some ()) rlen 0).mem
    have haddr : (p.startAddr + UInt32.ofNat i).toNat = p.startAddr.toNat + i := by
      simp only [UInt32.toNat_add, UInt32.toNat_ofNat', binLen] at *
      omega
    have hbuf : tempbuf = Nor.read flash.mem (p.startAddr.toNat + i) rlen := by
      simp only [tempbuf, r, dif_neg (by omega : ¬ i = 0), tklFlashRead_bytes, haddr]
    rw [ih (by omega), hmem, hbuf, List.take_of_length_le (by simp), ← addBytes_append]
    rcases Nat.lt_or_ge (binLen - i) bufSize with hlast | hfull
    · have hr : rlen = binLen - i := dif_neg (by omega)
      rw [hr, show p.fileHeader.binLen.toNat - (i + bufSize) = 0 by omega]
      simp [Nor.read, binLen]
    · have hr : rlen = bufSize := dif_pos hfull
      rw [hr, ← Nat.add_assoc, ← Nor.read_add,
        show bufSize + (p.fileHeader.binLen.toNat - (i + bufSize)) =
          p.fileHeader.binLen.toNat - i by omega]
  | case2 flash i sum binLen h =>
    rw [show p.fileHeader.binLen.toNat - i = 0 by omega]
    rfl

/-- The stored image is the first chunk, which carries the saved block, and what follows it in
    the slot. -/
theorem storedImage_chunks (s : Ota) (p : UgProc) (hpos : 0 < p.fileHeader.binLen.toNat) :
    let binLen := p.fileHeader.binLen.toNat
    let rlen := if bufSize ≤ binLen - 0 then bufSize else binLen - 0
    storedImage s p = (s.fristBytes ++ (Nor.read s.flash.mem p.startAddr.toNat rlen).drop
        rtImgWrUnit).take rlen ++
      Nor.read s.flash.mem (p.startAddr.toNat + (0 + bufSize)) (binLen - (0 + bufSize)) := by
  intro binLen rlen
  have hbuf : bufSize = 4096 := rfl
  have hunit : rtImgWrUnit = 512 := rfl
  unfold storedImage
  rcases Nat.lt_or_ge binLen bufSize with hlast | hfull
  · have hr : rlen = binLen := if_neg (by omega)
    rw [hr, show binLen - (0 + bufSize) = 0 by omega]
    exact (List.append_nil _).symm
  · have hr : rlen = bufSize := if_pos hfull
    have hsplit : binLen - rtImgWrUnit = (bufSize - rtImgWrUnit) + (binLen - (0 + bufSize)) := by
      omega
    have hnext : p.startAddr.toNat + rtImgWrUnit + (bufSize - rtImgWrUnit) =
        p.startAddr.toNat + (0 + bufSize) := by omega
    rw [hr, Nor.drop_read _ _ (show rtImgWrUnit ≤ bufSize by decide),
      Nor.drop_read _ _ (show rtImgWrUnit ≤ binLen by omega), List.take_of_length_le,
      List.take_of_length_le, hsplit, Nor.read_add, hnext, List.append_assoc]
    · simp only [List.length_append, length_fristBytes, Nor.length_read]
      omega
    · simp only [List.length_append, length_fristBytes, Nor.length_read]
      omega

/-- The loop computes the byte sum of the stored image. -/
theorem checksumLoop_spec {s : Ota} {p : UgProc}
    (hfit : p.startAddr.toNat + p.fileHeader.binLen.toNat < 2 ^ 32) :
    (checksumLoop s p s.flash 0 0).1 = addBytes 0 (storedImage s p) := by
  have hbuf : 0 < bufSize := by decide
  rw [checksumLoop]
  dsimp only
  split
  · rename_i hpos
    have haddr : (p.startAddr + UInt32.ofNat 0).toNat = p.startAddr.toNat := by simp
    rw [checksumLoop_tail hfit _ _ _ (by decide), if_pos rfl, ← addBytes_append,
      (executes_read _ _ _ _ 0).mem, Nor.execAll_nil, tklFlashRead_bytes, haddr]
    rw [← storedImage_chunks s p (by omega)]
  · rename_i hpos
    have hz : p.fileHeader.binLen.toNat = 0 := by omega
    simp [storedImage, hz]

/-! ## The call -/

/-- A call that finds another sum drops the session; contents, log and protection of the flash
    stay. -/
structure Discarded (s s' : Ota) : Prop where
  executes : ∀ v, Executes s.flash [] v s.flash.protectValue s'.flash
  ugProc : s'.ugProc = none
  frist : s'.fristBlockDatabuf = none
  writes : s'.writes = s.writes
  lowMem : s'.lowMem = s.lowMem

/-- A call that finds the sum drops the session, too. It erases the first sector of the slot and
    issues `ops` to write `buf` there: the saved first block and behind it what the sector held
    before. -/
structure Committed (s : Ota) (p : UgProc) (buf : List UInt8) (ops : List Nor.Op) (s' : Ota) :
    Prop where
  executes : Executes s.flash (eraseOps s.flash.cfg p.startAddr (UInt32.ofNat bufSize) ++ ops)
    s.flash.cfg.protectHalf s.flash.cfg.protectAll s'.flash
  len : buf.length = bufSize
  saved : ∀ b, s.fristBlockDatabuf = some b → buf =
    b.bytes ++ Nor.read s.flash.mem (p.startAddr.toNat + rtImgWrUnit) (bufSize - rtImgWrUnit)
  foot : ∀ o ∈ ops, WriteFoot p.startAddr.toNat bufSize o
  ok : fate s = .ok → ∀ d₁ : FlashDev, d₁.cfg = s.flash.cfg →
    d₁.mem = Nor.execAll (eraseOps s.flash.cfg p.startAddr (UInt32.ofNat bufSize)) s.flash.mem →
    WriteOps d₁ p.startAddr.toNat buf ops
  ugProc : s'.ugProc = none
  frist : s'.fristBlockDatabuf = none
  writes : s'.writes = s.writes.tail
  lowMem : s'.lowMem = s.lowMem

@[simp] theorem flash_release (s : Ota) : s.release.flash = s.flash := by
  simp [Ota.release, Ota.free]

/-- A reset is counted and changes nothing else. -/
theorem reset_frame (s : Ota) (reset : Bool) :
    let s' := if reset then { s with resets := s.resets + 1 } else s
    s'.flash = s.flash ∧ s'.ugProc = s.ugProc ∧ s'.fristBlockDatabuf = s.fristBlockDatabuf ∧
      s'.writes = s.writes ∧ s'.lowMem = s.lowMem := by
  cases reset <;> exact ⟨rfl, rfl, rfl, rfl, rfl⟩

theorem fristBytes_eq {s : Ota} {b : Block} (h : s.fristBlockDatabuf = some b) :
    s.fristBytes = b.bytes := by
  unfold Ota.fristBytes
  rw [h]

/-- The commit, on a state `s₁` that differs from `s` in its heap and in reads of the flash. -/
theorem committed_of {s s' : Ota} {p : UgProc} (s₁ : Ota)
    (hreads : ∀ v, Executes s.flash [] v s.flash.protectValue s₁.flash)
    (hwrites : s₁.writes = s.writes) (hfrist : s₁.fristBlockDatabuf = s.fristBlockDatabuf)
    (hug : s'.ugProc = none) (hfr : s'.fristBlockDatabuf = none)
    (hwr : s'.writes = s.writes.tail) (hlow : s'.lowMem = s.lowMem) :
    let r := tklFlashRead s₁.flash p.startAddr (some ()) bufSize
    let s₂ := ({ s₁ with flash := r.2.2 }).guardedErase p.startAddr (UInt32.ofNat bufSize)
    s'.flash = (s₂.guardedWrite p.startAddr (s₂.fristBytes ++ r.2.1.drop rtImgWrUnit)).2.flash →
    ∃ buf ops, Committed s p buf ops s' := by
  intro r s₂ hs'
  have hread : Executes s.flash [] s.flash.cfg.protectHalf s.flash.protectValue r.2.2 := by
    have h := (hreads s.flash.cfg.protectHalf).trans
      (executes_read s₁.flash p.startAddr (some ()) bufSize _)
    rwa [(hreads 0).protect] at h
  have herase := guardedErase_spec { s₁ with flash := r.2.2 } p.startAddr (UInt32.ofNat bufSize)
  have hbytes : r.2.1 = Nor.read s.flash.mem p.startAddr.toNat bufSize := by
    rw [tklFlashRead_bytes, (hreads 0).mem]
    rfl
  obtain ⟨ops, hw⟩ := guardedWrite_spec s₂ p.startAddr (s₂.fristBytes ++ r.2.1.drop rtImgWrUnit)
  dsimp only at herase
  rw [hread.cfg] at herase
  have hcfg₂ : s₂.flash.cfg = s.flash.cfg := herase.cfg.trans hread.cfg
  have hmem₂ : s₂.flash.mem = Nor.execAll
      (eraseOps s.flash.cfg p.startAddr (UInt32.ofNat bufSize)) s.flash.mem := by
    rw [herase.mem, hread.mem]
    rfl
  have hlen : (s₂.fristBytes ++ r.2.1.drop rtImgWrUnit).length = bufSize := by
    rw [hbytes, List.length_append, length_fristBytes, List.length_drop, Nor.length_read]
    rfl
  refine ⟨_, ops, ⟨?_, hlen, ?_, ?_, ?_, hug, hfr, hwr, hlow⟩⟩
  · have hex := hw.executes
    rw [hcfg₂] at hex
    have hall := (hread.trans herase).trans hex
    rw [List.nil_append] at hall
    rwa [← hs'] at hall
  · intro b hb
    have hb₂ : s₂.fristBlockDatabuf = some b := by simpa only [s₂, frist_guardedErase, hfrist]
    rw [fristBytes_eq hb₂, hbytes, Nor.drop_read _ _ (by decide)]
  · intro o ho
    rw [← hlen]
    exact hw.foot o ho
  · intro hok d₁ hcfg hmem
    have hfate : fate s₂ = .ok := by
      unfold fate at hok ⊢
      simpa only [s₂, writes_guardedErase, hwrites]
    exact (hw.ok hfate).2.congr (hcfg₂.trans hcfg.symm) (hmem₂.trans hmem.symm)

/-- The four ways of the call. -/
theorem tklOtaEndNotify_cases {s : Ota} (reset : Bool)
    (hfit : ∀ p, s.ugProc = some p → p.startAddr.toNat + p.fileHeader.binLen.toNat < 2 ^ 32) :
    (s.ugProc = none ∧ tklOtaEndNotify s reset = (oprtOsAdapterInvalidParm, s)) ∨
    (∃ p, s.ugProc = some p ∧ (
      (s.malloc.1 = false ∧ tklOtaEndNotify s reset = (oprtMallocFailed, s.malloc.2)) ∨
      (s.malloc.1 = true ∧ ¬ SumMatches s p ∧
        (tklOtaEndNotify s reset).1 = oprtOsAdapterOtaEndInformFailed ∧
        Discarded s (tklOtaEndNotify s reset).2) ∨
      (s.malloc.1 = true ∧ SumMatches s p ∧ (tklOtaEndNotify s reset).1 = oprtOk ∧
        ∃ buf ops, Committed s p buf ops (tklOtaEndNotify s reset).2))) := by
  unfold tklOtaEndNotify
  split
  · exact .inl ⟨‹_›, rfl⟩
  · rename_i p hp
    refine .inr ⟨p, hp, ?_⟩
    dsimp only
    split
    · rename_i hm
      have hsum : (checksumLoop s.malloc.2 p s.malloc.2.flash 0 0).1 =
          addBytes 0 (storedImage s p) := by
        rw [checksumLoop_spec (hfit p hp)]
        unfold storedImage Ota.fristBytes
        simp
      have hreads := checksumLoop_reads s.malloc.2 p s.malloc.2.flash 0 0
      generalize checksumLoop s.malloc.2 p s.malloc.2.flash 0 0 = c at hsum hreads ⊢
      rw [flash_malloc] at hreads
      rw [hsum]
      split
      · rename_i hne
        refine .inr (.inl ⟨hm, hne, rfl, ?_, rfl, rfl, ?_, ?_⟩)
        · simpa using hreads
        · simp [Ota.release, Ota.free]
        · simp [Ota.release, Ota.free]
      · rename_i heq
        refine .inr (.inr ⟨hm, not_not.mp heq, rfl, ?_⟩)
        obtain ⟨hfl, hug, hfr, hwr, hlow⟩ := reset_frame (Ota.release _) reset
        refine committed_of { s.malloc.2 with flash := c.2 } hreads (writes_malloc s)
          (frist_malloc s) hug hfr (hwr.trans ?_) (hlow.trans ?_) (hfl.trans (flash_release _))
        · simp [Ota.release, Ota.free]
        · simp [Ota.release, Ota.free]
    · rename_i hm
      exact .inl ⟨by simpa using hm, rfl⟩

end ArduinoT2.Ota
