import ArduinoT2.Ota.Accounting
import ArduinoT2.Ota.Install
import ArduinoT2.Ota.Safety

/-
  Failures during the image (`tkl_ota_data_process` of tkl_ota.c), and the caller that goes on
  behind them.

  A packet that fails has taken in whole blocks, and may have programmed bits of the next one. The
  caller presents the bytes behind them again, and programming over some of the bits of a block
  programs the block. So a session stays one that the rest of the image completes to the same
  contents (`Resuming`), whatever fails in it. `ota_resumes`: when it is finished it is as if
  nothing had failed.
-/

namespace ArduinoT2.Ota

open ArduinoT2.Vendor ArduinoT2.Adapter StepSys

/-! ## Some of the bits -/

theorem or_and_cancel (x m : UInt8) : (x ||| m) &&& x = x := by
  refine UInt8.toBitVec_inj.mp (BitVec.eq_of_getLsbD_eq fun i hi => ?_)
  rw [UInt8.toBitVec_and, UInt8.toBitVec_or, BitVec.getLsbD_and, BitVec.getLsbD_or]
  cases x.toBitVec.getLsbD i
  · rw [Bool.and_false]
  · rw [Bool.true_or, Bool.true_and]

/-- The bytes of a write that fails are some of the bits of the bytes that are to be written. -/
theorem partOf_and (src more mask : List UInt8) (i : Nat) :
    (partOf src mask).getD i 0xFF &&& (src ++ more).getD i 0xFF = (src ++ more).getD i 0xFF := by
  unfold partOf
  rw [List.getD_eq_getElem?_getD, List.getElem?_zipWith]
  cases hsrc : src[i]? with
  | none => exact Nor.ff_and _
  | some b =>
    cases mask[i]? with
    | none => exact Nor.ff_and _
    | some m =>
      have hi := (List.getElem?_eq_some_iff.mp hsrc).1
      rw [List.getD_append _ _ _ _ hi, List.getD_eq_getElem?_getD, hsrc]
      exact or_and_cancel b m

theorem program_partOf (addr : Nat) (src more mask : List UInt8) (m : Nor.Mem) :
    (Nor.Op.program addr (src ++ more)).exec ((Nor.Op.program addr (partOf src mask)).exec m) =
      (Nor.Op.program addr (src ++ more)).exec m :=
  Nor.program_over addr (partOf_and src more mask) m

/-- Some of the bits of erased bytes are none. -/
theorem program_partOf_ff (addr n : Nat) (mask : List UInt8) (m : Nor.Mem) :
    (Nor.Op.program addr (partOf (List.replicate n 0xFF) mask)).exec m = m := by
  funext a
  rw [Nor.program_exec]
  split
  · rw [List.getD_eq_getElem?_getD]
    cases hg : (partOf (List.replicate n 0xFF) mask)[a - addr]? with
    | none => exact Nor.and_ff _
    | some b =>
      rw [partOf_ff n mask b (List.mem_of_getElem? hg)]
      exact Nor.and_ff _
  · rfl

/-- A bracketed write inside the chip: all bytes are programmed, or it fails and some of their
    bits are. -/
theorem guardedWrite_mem {s : Ota} {addr : UInt32} {src : List UInt8}
    (hin : src ≠ [] → s.flash.InRange addr.toNat src.length) :
    let r := s.guardedWrite addr src
    (r.1 = oprtOk ∧ r.2.flash.mem = (Nor.Op.program addr.toNat src).exec s.flash.mem) ∨
      (r.1 ≠ oprtOk ∧ ∃ mask, r.2.flash.mem =
        (Nor.Op.program addr.toNat (partOf src mask)).exec s.flash.mem) := by
  intro r
  obtain ⟨ops, hw⟩ := guardedWrite_spec s addr src
  have hne : oprtComError ≠ oprtOk := by decide
  cases hf : fate s with
  | ok =>
    obtain ⟨hrc, hops⟩ := hw.ok hf
    refine .inl ⟨hrc, hw.executes.mem.trans (hops.effect.trans ?_)⟩
    by_cases hnil : src = []
    · rw [hnil, Nor.program_nil, ite_self]
    · rw [if_pos (hin hnil)]
  | fail mask =>
    obtain ⟨hrc, hops⟩ := hw.fail mask hf
    refine .inr ⟨by rw [hrc]; exact hne, mask, ?_⟩
    rw [hw.executes.mem, hops, Nor.execAll_cons, Nor.execAll_nil]

/-! ## The blocks of a packet -/

/-- The block at `addr` is inside the chip. -/
theorem inRange_of_le {d : FlashDev} {addr n : Nat} (hn : 0 < n)
    (h : addr + n ≤ d.cfg.flashSize) : d.InRange addr n := by
  unfold FlashDev.InRange
  omega

/-- The dummy data of the first block change nothing, whether they are written or fail. -/
theorem dummyWrite_mem {s : Ota} {addr : UInt32}
    (hfit : addr.toNat + rtImgWrUnit ≤ s.flash.cfg.flashSize) :
    (s.guardedWrite addr (List.replicate rtImgWrUnit 0xFF)).2.flash.mem = s.flash.mem := by
  have hin : s.flash.InRange addr.toNat (List.replicate rtImgWrUnit (0xFF : UInt8)).length := by
    rw [List.length_replicate]
    exact inRange_of_le (by decide) hfit
  rcases @guardedWrite_mem s addr (List.replicate rtImgWrUnit 0xFF) fun _ => hin with
    ⟨_, hmem⟩ | ⟨_, mask, hmem⟩
  · exact hmem.trans (program_erasedBlock _ _)
  · exact hmem.trans (program_partOf_ff _ _ _ _)

/-- The bytes from a block on complete the contents `F`, also when the block has failed, and the
    bytes behind it do when it is written. -/
theorem writeBlock_completes {s : Ota} {p : UgProc} {blk : Block} {more : List UInt8}
    {F : Nor.Mem} (buf : Bool)
    (hfit : p.flashAddr.toNat + rtImgWrUnit ≤ s.flash.cfg.flashSize)
    (h : programBlocks p.flashAddr.toNat s.firstBlock (blk.bytes ++ more) s.flash.mem = F) :
    Ends (fun s' => programBlocks p.flashAddr.toNat s.firstBlock (blk.bytes ++ more)
        s'.flash.mem = F)
      (fun r => programBlocks (p.flashAddr.toNat + rtImgWrUnit) false more r.1.flash.mem = F)
      (writeBlock s p buf blk) := by
  have hdone := programBlocks_cons p.flashAddr.toNat s.firstBlock blk more s.flash.mem
  rw [h] at hdone
  refine writeBlock_ends (fun hfirst => ?_) fun hfirst => ?_
  · rw [hfirst, if_pos rfl, program_erasedBlock] at hdone
    rcases saveFirstBlock_cases s blk with ⟨hsave, _⟩ | ⟨s₁, hsave, _, hfl, _⟩
    · rw [hsave]
      show programBlocks _ _ _ s.malloc.2.flash.mem = F
      rw [flash_malloc, h]
    · rw [hsave]
      have hflash : s₁.malloc.2.flash = s.flash := (flash_malloc s₁).trans hfl
      have hsame := @dummyWrite_mem s₁.malloc.2 p.flashAddr (by rw [hflash]; exact hfit)
      rw [hflash] at hsame
      refine ⟨fun _ => by rw [hflash, h], fun _ => ⟨fun _ => ?_, fun _ => ?_⟩⟩
      · exact (congrArg (programBlocks _ _ _) hsame).trans hdone.symm
      · exact (congrArg (programBlocks _ _ _) hsame).trans h
  · rw [hfirst, if_neg Bool.false_ne_true] at hdone
    rw [hfirst] at h ⊢
    have hw := @guardedWrite_mem s p.flashAddr blk.bytes fun _ => by
      rw [blk.len]
      exact inRange_of_le (by decide) hfit
    refine ⟨fun hok => ?_, fun hno => ?_⟩
    · rcases hw with ⟨_, hmem⟩ | ⟨hno, _⟩
      · rw [hmem, ← hdone]
      · exact absurd hok hno
    · rcases hw with ⟨hok, _⟩ | ⟨_, mask, hmem⟩
      · exact absurd hok hno
      · rw [flash_freeIf, hmem, ← h]
        exact program_partOf _ _ _ _ _

/-- The bytes behind the loop complete the contents that the bytes from it on complete. -/
theorem blockLoop_completes {F : Nor.Mem} (more : List UInt8) (s : Ota) (p : UgProc) (buf : Bool)
    (rest : List UInt8) (hfit : p.flashAddr.toNat + rest.length ≤ s.flash.cfg.flashSize)
    (h : programBlocks p.flashAddr.toNat s.firstBlock (rest ++ more) s.flash.mem = F) :
    let place := fun rest' : List UInt8 => p.flashAddr.toNat + rest.length - rest'.length
    Ends (fun r => programBlocks (place r.2) r.1.firstBlock (r.2 ++ more) r.1.flash.mem = F)
      (fun r => programBlocks (place r.2.2.2) r.1.firstBlock (r.2.2.2 ++ more)
        r.1.flash.mem = F) (blockLoop s p buf rest) := by
  intro place
  -- the end of the packet stays where it is
  have hends := @blockLoop_ends
    (fun s₁ p₁ _ rest₁ => p₁.flashAddr.toNat + rest₁.length = p.flashAddr.toNat + rest.length ∧
      p₁.flashAddr.toNat + rest₁.length ≤ s₁.flash.cfg.flashSize ∧
      programBlocks p₁.flashAddr.toNat s₁.firstBlock (rest₁ ++ more) s₁.flash.mem = F)
    (fun s' rest' => programBlocks (place rest') s'.firstBlock (rest' ++ more) s'.flash.mem = F)
    ?_ s p buf rest ⟨rfl, hfit, h⟩
  · refine hends.imp (fun _ he => he) fun r ⟨⟨hplace, _, hmem⟩, _⟩ => ?_
    rw [show place r.2.2.2 = r.2.1.flashAddr.toNat from Nat.sub_eq_of_eq_add hplace.symm]
    exact hmem
  · rintro s₁ p₁ buf₁ blk rest₁ ⟨hplace, hfit₁, hmem⟩
    have hsize := flashSize_le s₁.flash
    have hlen : (blk.bytes ++ rest₁).length = rtImgWrUnit + rest₁.length := by
      rw [List.length_append, blk.len]
    rw [List.append_assoc] at hmem
    have hnext : (p₁.advance rtImgWrUnit).flashAddr.toNat = p₁.flashAddr.toNat + rtImgWrUnit := by
      rw [flashAddr_advance, UInt32.toNat_add, UInt32.toNat_ofNat']
      simp only [rtImgWrUnit] at *
      omega
    refine ((writeBlock_step s₁ p₁ buf₁ blk).and
      (writeBlock_completes buf₁ (by omega) hmem)).imp ?_ ?_
    · rintro s' ⟨⟨-, hfirst⟩, hmem'⟩
      rw [show place (blk.bytes ++ rest₁) = p₁.flashAddr.toNat from
        Nat.sub_eq_of_eq_add hplace.symm, hfirst, List.append_assoc]
      exact hmem'
    · rintro r ⟨⟨hb, hfirst⟩, hmem'⟩
      refine ⟨by rw [hnext]; omega, ?_, ?_⟩
      · show _ ≤ r.1.flash.cfg.flashSize
        rw [hnext, hb.guarded.cfg]
        omega
      · rw [hnext, hfirst]
        exact hmem'

/-! ## One packet -/

/-- The session behind the header of an image of a block or more. -/
structure ImageOf (p₀ : UgProc) (B : List UInt8) : Prop where
  stat : p₀.stat = .recvImgData
  addr : p₀.flashAddr = ugStartAddr
  recv : p₀.recvDataCnt = 0
  binLen : p₀.fileHeader.binLen.toNat = B.length
  long : rtImgWrUnit ≤ B.length

/-- The session has taken in `n` bytes of the image `B` in blocks, and the others complete the
    contents `F`, whatever has been programmed of them. -/
structure Resuming (p₀ : UgProc) (B : List UInt8) (F : Nor.Mem) (s : Ota) (n : Nat) : Prop where
  ugProc : s.ugProc = some (p₀.advance n)
  first : s.firstBlock = decide (n = 0)
  saved : 0 < n → ∃ blk, s.fristBlockDatabuf = some blk ∧ blk.bytes = B.take rtImgWrUnit
  le : n ≤ B.length
  dvd : rtImgWrUnit ∣ n
  slot : SlotFits s.flash
  mem : programBlocks (ugStartAddr.toNat + n) s.firstBlock (B.drop n) s.flash.mem = F

/-- The session is finished with the contents `F`. -/
structure Resumed (p₀ : UgProc) (B : List UInt8) (F : Nor.Mem) (s : Ota) : Prop where
  ugProc : s.ugProc = some (finished p₀ B.length)
  first : s.firstBlock = false
  saved : ∃ blk, s.fristBlockDatabuf = some blk ∧ blk.bytes = B.take rtImgWrUnit
  mem : s.flash.mem = F

section Packet

variable {p₀ : UgProc} {B data rest : List UInt8} {F : Nor.Mem} {s s₁ : Ota} {n k : Nat}

theorem ImageOf.lt (hi : ImageOf p₀ B) : B.length < otaMaxBinSize := by
  rw [← hi.binLen]
  exact p₀.fits

theorem ImageOf.recvDataCnt (hi : ImageOf p₀ B) (hn : n ≤ B.length) :
    (p₀.advance n).recvDataCnt.toNat = n := by
  rw [recvDataCnt_within (n := n) (by rw [hi.recv, hi.binLen]; simpa using hn) (Nat.le_refl n),
    hi.recv]
  exact Nat.zero_add n

theorem ImageOf.flashAddr (hi : ImageOf p₀ B) (hn : n ≤ B.length) :
    (p₀.advance n).flashAddr.toNat = ugStartAddr.toNat + n := by
  have hlt := hi.lt
  rw [flashAddr_advance, hi.addr, UInt32.toNat_add, UInt32.toNat_ofNat', ugStartAddr_toNat]
  simp only [otaMaxBinSize] at hlt
  omega

theorem drop_split (hB : B.drop n = data ++ rest) (hk : k ≤ data.length) :
    B.drop (n + k) = data.drop k ++ rest := by
  rw [← List.drop_drop, hB, List.drop_append_of_le_length hk]

theorem length_split (hle : n ≤ B.length) (hB : B.drop n = data ++ rest) :
    n + data.length + rest.length = B.length := by
  have hl := congrArg List.length hB
  rw [List.length_drop, List.length_append] at hl
  omega

/-- The loop takes the session further. -/
theorem Resuming.loop (h : Resuming p₀ B F s n) (hB : B.drop n = data ++ rest)
    (hl : LoopStep s (p₀.advance n) data k s₁)
    (hmem : programBlocks (ugStartAddr.toNat + (n + k)) s₁.firstBlock (data.drop k ++ rest)
      s₁.flash.mem = F) : Resuming p₀ B F s₁ (n + k) := by
  have hlen := length_split h.le hB
  have hk := hl.le
  refine ⟨?_, ?_, fun _ => ?_, by omega, Nat.dvd_add h.dvd hl.dvd, ?_, ?_⟩
  · rw [hl.ugProc h.ugProc, advance_advance]
  · rw [hl.first, h.first, Bool.eq_iff_iff]
    simp
  · have hfr := hl.frist
    rw [h.first] at hfr
    rcases Nat.eq_zero_or_pos n with rfl | hn
    · rw [decide_eq_true rfl, if_pos rfl] at hfr
      obtain ⟨blk, hblk, hsome⟩ := hfr (by omega)
      have hdvd := hl.dvd
      have hunit : rtImgWrUnit ≤ data.length := by
        have := Nat.le_of_dvd (by omega) hdvd
        omega
      refine ⟨blk, hsome, ?_⟩
      have htake := congrArg (List.take rtImgWrUnit) hB
      rw [List.drop_zero, List.take_append_of_le_length hunit] at htake
      rw [hblk, htake]
    · rw [decide_eq_false (Nat.ne_of_gt hn), if_neg Bool.false_ne_true] at hfr
      obtain ⟨blk, hsome, hblk⟩ := h.saved hn
      exact ⟨blk, hfr.trans hsome, hblk⟩
  · unfold SlotFits
    rw [hl.guarded.cfg]
    exact h.slot
  · rw [drop_split hB hk]
    exact hmem

/-- The session goes on in a state with the same session, first block and contents to come. -/
theorem Resuming.congr {s' : Ota} (h : Resuming p₀ B F s₁ n) (hug : s'.ugProc = s₁.ugProc)
    (hfirst : s'.firstBlock = s₁.firstBlock)
    (hfrist : s'.fristBlockDatabuf = s₁.fristBlockDatabuf) (hcfg : s'.flash.cfg = s₁.flash.cfg)
    (hmem : programBlocks (ugStartAddr.toNat + n) s₁.firstBlock (B.drop n) s'.flash.mem = F) :
    Resuming p₀ B F s' n where
  ugProc := hug.trans h.ugProc
  first := hfirst.trans h.first
  saved := by
    rw [hfrist]
    exact h.saved
  le := h.le
  dvd := h.dvd
  slot := by
    unfold SlotFits
    rw [hcfg]
    exact h.slot
  mem := by
    rw [hfirst]
    exact hmem

/-- A finished session swallows what comes. -/
theorem Resumed.again (h : Resumed p₀ B F s) (data : List UInt8) :
    tklOtaDataProcess s data = (⟨oprtOk, some 0⟩, s) :=
  dataProcess_finish h.ugProc rfl data

/-- The write of the last bytes of the image completes its contents, or leaves what is to be
    completed. -/
theorem Resuming.write_last (hi : ImageOf p₀ B) (h : Resuming p₀ B F s n) (hpos : 0 < n)
    (hB : B.drop n = data) :
    let w := s.guardedWrite (p₀.advance n).flashAddr data
    (w.1 = oprtOk → w.2.flash.mem = F) ∧ (w.1 ≠ oprtOk →
      programBlocks (ugStartAddr.toNat + n) s.firstBlock (B.drop n) w.2.flash.mem = F) := by
  have hle := h.le
  have hmax := hi.lt
  have hslot := h.slot
  have hmem := h.mem
  have haddr := hi.flashAddr hle
  have hlen := congrArg List.length hB
  unfold SlotFits at hslot
  rw [List.length_drop] at hlen
  have hfirst : s.firstBlock = false := by rw [h.first, decide_eq_false (Nat.ne_of_gt hpos)]
  rw [hfirst, hB, ← haddr] at hmem ⊢
  have hw := @guardedWrite_mem s (p₀.advance n).flashAddr data fun hne =>
    inRange_of_le (List.length_pos_of_ne_nil hne) (by
      rw [haddr]
      simp only [otaMaxBinSize] at *
      omega)
  refine ⟨fun hok => ?_, fun hno => ?_⟩
  · rcases hw with ⟨_, hdone⟩ | ⟨hno, _⟩
    · exact hdone.trans hmem
    · exact absurd hok hno
  · rcases hw with ⟨hok, _⟩ | ⟨_, mask, hpart⟩
    · exact absurd hok hno
    · have hover := program_partOf (p₀.advance n).flashAddr.toNat data [] mask s.flash.mem
      rw [List.append_nil] at hover
      rw [hpart]
      exact hover.trans hmem

/-- The bytes behind the blocks are written exactly if they are the last of the image. -/
theorem ImageOf.takes_last_iff (hi : ImageOf p₀ B) (hle : n ≤ B.length)
    (hlt : data.length < rtImgWrUnit) (hmore : n + data.length ≤ B.length) :
    let p := p₀.advance n
    (p.fileHeader.binLen - UInt32.ofNat rtImgWrUnit < p.recvDataCnt ∧
      (p.fileHeader.binLen - p.recvDataCnt).toNat ≤ data.length) ↔
      n + data.length = B.length := by
  intro p
  have hmax := hi.lt
  have hlong := hi.long
  have hbin : p.fileHeader.binLen.toNat = B.length := hi.binLen
  rw [UInt32.lt_iff_toNat_lt, binLen_sub_unit (by rw [hbin]; exact hlong), UInt32.toNat_sub,
    hi.recvDataCnt hle, hbin]
  simp only [rtImgWrUnit, otaMaxBinSize] at *
  omega

/-- The last bytes of the image: the session is finished, or their write has failed. -/
theorem Resuming.tail_last (hi : ImageOf p₀ B) (h : Resuming p₀ B F s n) (buf : Bool)
    (hpos : 0 < n) (hB : B.drop n = data) (hlt : data.length < rtImgWrUnit) :
    (∃ rc s', recvTail s (p₀.advance n) buf data = (⟨rc, some data.length⟩, s') ∧ rc ≠ oprtOk ∧
        Resuming p₀ B F s' n) ∨
      ∃ s', recvTail s (p₀.advance n) buf data = (⟨oprtOk, some 0⟩, s') ∧ Resumed p₀ B F s' := by
  have hle := h.le
  have hlen : n + data.length = B.length := by
    rw [← hB, List.length_drop]
    omega
  have hall : (p₀.advance (n + data.length)).fileHeader.binLen ≤
      (p₀.advance (n + data.length)).recvDataCnt := by
    rw [UInt32.le_iff_toNat_le, hi.recvDataCnt (Nat.le_of_eq hlen)]
    exact Nat.le_of_eq (hi.binLen.trans hlen.symm)
  obtain ⟨hdone, hfail⟩ := h.write_last hi hpos hB
  have hug := ugProc_guardedWrite s (p₀.advance n).flashAddr data
  have hfirst := firstBlock_guardedWrite s (p₀.advance n).flashAddr data
  have hfrist := frist_guardedWrite s (p₀.advance n).flashAddr data
  have hcfg := (guardedWrite_guarded s (p₀.advance n).flashAddr data).cfg
  unfold recvTail
  rw [if_pos ((hi.takes_last_iff hle hlt (Nat.le_of_eq hlen)).mpr hlen)]
  dsimp only
  generalize s.guardedWrite (p₀.advance n).flashAddr data = w at *
  split
  · rename_i hrc
    refine .inl ⟨_, _, rfl, processFailed_ne_ok, h.congr ?_ ?_ ?_ ?_ ?_⟩
    · rw [ugProc_freeIf, hug]
    · rw [firstBlock_freeIf, hfirst]
    · rw [frist_freeIf, hfrist]
    · rw [flash_freeIf]
      exact hcfg
    · rw [flash_freeIf]
      exact hfail hrc
  · rename_i hrc
    rw [advance_advance]
    unfold finishCheck
    rw [if_pos hall]
    refine .inr ⟨_, rfl, ?_, ?_, ?_, ?_⟩
    · rw [ugProc_freeIf, hlen]
      rfl
    · rw [firstBlock_freeIf]
      exact hfirst.trans (h.first.trans (decide_eq_false (Nat.ne_of_gt hpos)))
    · rw [frist_freeIf]
      show ∃ blk, w.2.fristBlockDatabuf = some blk ∧ _
      rw [hfrist]
      exact h.saved hpos
    · rw [flash_freeIf]
      exact hdone (not_not.mp hrc)

/-- Behind the blocks the last bytes of the image are written. -/
theorem Resuming.tail (hi : ImageOf p₀ B) (h : Resuming p₀ B F s n) (buf : Bool)
    (hB : B.drop n = data ++ rest) (hlt : data.length < rtImgWrUnit) :
    ∃ rc r s', recvTail s (p₀.advance n) buf data = (⟨rc, some r⟩, s') ∧ r ≤ data.length ∧
      (r = data.length ∧ Resuming p₀ B F s' n ∧ (rest = [] → rc ≠ oprtOk) ∨
        rest = [] ∧ r = 0 ∧ Resumed p₀ B F s') := by
  have hle := h.le
  have hlong := hi.long
  have hlen := length_split hle hB
  by_cases hrest : rest = []
  · rw [hrest, List.append_nil] at hB
    rw [hrest, List.length_nil] at hlen
    rcases h.tail_last hi buf (by omega) hB hlt with ⟨rc, s', heq, hrc, h'⟩ | ⟨s', heq, hdone⟩
    · exact ⟨rc, _, s', heq, Nat.le_refl _, .inl ⟨rfl, h', fun _ => hrc⟩⟩
    · exact ⟨_, 0, s', heq, Nat.zero_le _, .inr ⟨hrest, rfl, hdone⟩⟩
  · -- the image goes on
    have hmore := List.length_pos_of_ne_nil hrest
    have hnot : ¬(p₀.advance n).fileHeader.binLen ≤ (p₀.advance n).recvDataCnt := by
      rw [UInt32.le_iff_toNat_le, hi.recvDataCnt hle]
      show ¬p₀.fileHeader.binLen.toNat ≤ n
      rw [hi.binLen]
      omega
    unfold recvTail finishCheck
    rw [if_neg (mt (hi.takes_last_iff hle hlt (by omega)).mp (by omega)), if_neg hnot]
    exact ⟨_, _, _, rfl, Nat.le_refl _, .inl ⟨rfl, h, fun hnil => absurd hnil hrest⟩⟩

/-- A packet that goes on where the image has been taken in so far, whatever fails in it: what it
    leaves to the caller is what comes behind the bytes that it has taken in. -/
theorem Resuming.packet (hi : ImageOf p₀ B) (h : Resuming p₀ B F s n)
    (hB : B.drop n = data ++ rest) :
    ∃ rc r s', tklOtaDataProcess s data = (⟨rc, some r⟩, s') ∧ r ≤ data.length ∧
      (Resuming p₀ B F s' (n + (data.length - r)) ∧ (rest = [] → rc ≠ oprtOk) ∨
        rest = [] ∧ r = 0 ∧ Resumed p₀ B F s') := by
  have hlen := length_split h.le hB
  have haddr := hi.flashAddr h.le
  have hmax := hi.lt
  have hslot := h.slot
  have hmem := h.mem
  rw [dataProcess_image h.ugProc (show (p₀.advance n).stat = _ from hi.stat)]
  unfold recvImgData
  split
  · rename_i hwait
    have hbin : (p₀.advance n).fileHeader.binLen.toNat = B.length := hi.binLen
    rw [UInt32.le_iff_toNat_le, hi.recvDataCnt h.le,
      binLen_sub_unit (by rw [hbin]; exact hi.long), hbin] at hwait
    refine ⟨_, _, _, rfl, Nat.le_refl _, .inl ⟨?_, fun hrest => ?_⟩⟩
    · rw [Nat.sub_self, Nat.add_zero]
      exact h
    · have hlong := hi.long
      rw [hrest, List.length_nil] at hlen
      omega
  rw [hB, ← haddr] at hmem
  have hends := blockLoop_completes rest s (p₀.advance n) false data (by
    unfold SlotFits at hslot
    rw [haddr]
    simp only [otaMaxBinSize] at *
    omega) hmem
  have hback : ∀ k ≤ data.length,
      (p₀.advance n).flashAddr.toNat + data.length - (data.drop k).length =
        ugStartAddr.toNat + (n + k) := by
    intro k hk
    rw [haddr, List.length_drop]
    omega
  obtain ⟨k, s₁, hl, ⟨heq, -⟩ | ⟨hlt, buf, heq⟩⟩ := blockLoop_step s (p₀.advance n) false data
  · have hgo := h.loop hB hl (by rw [← hback k hl.le]; exact hends.error heq)
    have hk := hl.le
    rw [heq]
    refine ⟨_, _, _, rfl, by rw [List.length_drop]; exact Nat.sub_le _ _,
      .inl ⟨?_, fun _ => processFailed_ne_ok⟩⟩
    rwa [List.length_drop, Nat.sub_sub_self hk]
  · have hgo := h.loop hB hl (by rw [← hback k hl.le]; exact hends.ok heq)
    have hk := hl.le
    have hdrop : (data.drop k).length = data.length - k := List.length_drop
    rw [heq, advance_advance]
    obtain ⟨rc, r, s', htail, hr, hend⟩ :=
      hgo.tail hi buf (drop_split hB hk) (by rw [hdrop]; omega)
    refine ⟨rc, r, s', htail, by omega, hend.imp_left ?_⟩
    rintro ⟨rfl, hgo', hrc⟩
    rw [hdrop, Nat.sub_sub_self hk]
    exact ⟨hgo', hrc⟩

end Packet

/-! ## Failures are used up -/

/-- How many allocations and writes may still fail. -/
def failures (s : Ota) : Nat := s.mallocs.length + s.writes.length

theorem malloc_failures (s : Ota) :
    failures s.malloc.2 ≤ failures s ∧ (s.malloc.1 = false → failures s.malloc.2 < failures s) := by
  unfold Ota.malloc failures
  cases h : s.mallocs with
  | nil => exact ⟨by simp, (fun hno => nomatch hno)⟩
  | cons b bs =>
    cases b with
    | true =>
      refine ⟨?_, (fun hno => nomatch hno)⟩
      show bs.length + s.writes.length ≤ (true :: bs).length + s.writes.length
      rw [List.length_cons]
      omega
    | false =>
      have hlt : bs.length + s.writes.length < (false :: bs).length + s.writes.length := by
        rw [List.length_cons]
        omega
      exact ⟨Nat.le_of_lt hlt, fun _ => hlt⟩

theorem guardedWrite_failures (s : Ota) (addr : UInt32) (src : List UInt8) :
    let r := s.guardedWrite addr src
    failures r.2 ≤ failures s ∧ (r.1 ≠ oprtOk → failures r.2 < failures s) := by
  intro r
  have hwrites : r.2.writes = s.writes.tail := writes_guardedWrite s addr src
  have hmallocs : r.2.mallocs = s.mallocs := mallocs_guardedWrite s addr src
  unfold failures
  rw [hwrites, hmallocs, List.length_tail]
  refine ⟨by omega, fun hrc => ?_⟩
  -- a list that is used up has no failures
  have hpos : 0 < s.writes.length := by
    refine List.length_pos_of_ne_nil fun hnil => fate_of_guardedWrite hrc ?_
    unfold fate
    rw [hnil]
    rfl
  omega

theorem failures_freeIf (s : Ota) (buf : Bool) : failures (s.freeIf buf) = failures s := by
  cases buf <;> rfl

theorem saveFirstBlock_failures (s : Ota) (blk : Block) :
    Ends (failures · < failures s) (failures · ≤ failures s) (saveFirstBlock s blk) := by
  obtain ⟨hle, hlt⟩ := malloc_failures s
  unfold saveFirstBlock
  cases s.fristBlockDatabuf with
  | some b => exact Nat.le_refl _
  | none =>
    dsimp only
    split
    · exact hle
    · rename_i hno
      exact hlt (Bool.eq_false_iff.mpr hno)

/-- A block that fails uses up a failure. -/
theorem writeBlock_failures (s : Ota) (p : UgProc) (buf : Bool) (blk : Block) :
    Ends (failures · < failures s) (fun r => failures r.1 ≤ failures s)
      (writeBlock s p buf blk) := by
  refine writeBlock_ends (fun _ => (saveFirstBlock_failures s blk).imp (fun _ he => he)
    fun s₁ hsaved => ?_) fun _ => ?_
  · obtain ⟨hmle, hmlt⟩ := malloc_failures s₁
    obtain ⟨hwle, hwlt⟩ := guardedWrite_failures s₁.malloc.2 p.flashAddr
      (List.replicate rtImgWrUnit 0xFF)
    generalize s₁.malloc.2.guardedWrite p.flashAddr (List.replicate rtImgWrUnit 0xFF) = w at *
    refine ⟨fun hno => Nat.lt_of_lt_of_le (hmlt hno) hsaved, fun _ => ⟨fun _ => ?_, fun hrc => ?_⟩⟩
    · exact Nat.le_trans hwle (Nat.le_trans hmle hsaved)
    · exact Nat.lt_of_lt_of_le (hwlt hrc) (Nat.le_trans hmle hsaved)
  · obtain ⟨hwle, hwlt⟩ := guardedWrite_failures s p.flashAddr blk.bytes
    generalize s.guardedWrite p.flashAddr blk.bytes = w at *
    refine ⟨fun _ => hwle, fun hrc => ?_⟩
    rw [failures_freeIf]
    exact hwlt hrc

theorem blockLoop_failures (s : Ota) (p : UgProc) (buf : Bool) (rest : List UInt8) :
    Ends (fun r => failures r.1 < failures s) (fun r => failures r.1 ≤ failures s)
      (blockLoop s p buf rest) := by
  refine (@blockLoop_ends (fun s₁ _ _ _ => failures s₁ ≤ failures s)
    (fun s' _ => failures s' < failures s) ?_ s p buf rest (Nat.le_refl _)).imp
    (fun _ he => he) fun _ hq => hq.1
  intro s₁ p₁ buf₁ blk rest₁ hle
  exact (writeBlock_failures s₁ p₁ buf₁ blk).imp (fun _ hlt => Nat.lt_of_lt_of_le hlt hle)
    fun _ hq => Nat.le_trans hq hle

/-- A packet of the image that fails uses up a failure. -/
theorem recvImgData_failures {s : Ota} {p : UgProc} {data : List UInt8}
    (hrc : (recvImgData s p data).1.rc ≠ oprtOk) :
    failures (recvImgData s p data).2 < failures s := by
  unfold recvImgData at hrc ⊢
  split
  · rename_i hwait
    rw [if_pos hwait] at hrc
    exact absurd rfl hrc
  rename_i hwait
  rw [if_neg hwait] at hrc
  have hends := blockLoop_failures s p false data
  cases hloop : blockLoop s p false data with
  | error r =>
    obtain ⟨s₁, rest⟩ := r
    exact hends.error hloop
  | ok r =>
    obtain ⟨s₁, p₁, buf, rest⟩ := r
    rw [hloop] at hrc
    have hle : failures s₁ ≤ failures s := hends.ok hloop
    obtain ⟨-, hlt⟩ := guardedWrite_failures s₁ p₁.flashAddr rest
    dsimp only at hrc ⊢
    unfold recvTail finishCheck at hrc ⊢
    split_ifs at hrc ⊢
    · dsimp only at hrc ⊢
      split_ifs at hrc ⊢
      · rename_i hfail
        dsimp only
        rw [failures_freeIf]
        exact Nat.lt_of_lt_of_le (hlt hfail) hle
      · exact absurd rfl hrc
      · exact absurd rfl hrc
    · exact absurd rfl hrc
    · exact absurd rfl hrc

/-! ## Packet streams -/

/-- Where the caller stands that has a header and an image `B` to present, of which `rest` is
    still to come, whatever has failed. -/
inductive Presenting (hdr : List UInt8) (hacc : Accepts hdr) (B : List UInt8) (F : Nor.Mem) :
    Ota × List UInt8 → List UInt8 → Prop where
  | header (s : Ota) (left rest : List UInt8) (p : UgProc) (hs : Session s p)
      (hp : s.ugProc = some p) (hst : p.stat = .recvHeader) (hslot : SlotFits s.flash)
      (hleft : left.length < hdrSize) (heq : left ++ rest = hdr ++ B)
      (hmem : programBlocks ugStartAddr.toNat true B (Nor.execAll
        (eraseOps s.flash.cfg ugStartAddr (fileHeaderOf hdr).binLen) s.flash.mem) = F) :
      Presenting hdr hacc B F (s, left) rest
  | image (s : Ota) (left rest : List UInt8) (n : Nat)
      (h : Resuming (accepted (fileHeaderOf hdr) hacc.size) B F s n)
      (heq : B.drop n = left ++ rest) : Presenting hdr hacc B F (s, left) rest
  | done (s : Ota) (h : Resumed (accepted (fileHeaderOf hdr) hacc.size) B F s) :
      Presenting hdr hacc B F (s, []) []

section Stream

variable {hdr B : List UInt8} (hf : HeaderOf hdr B) {F : Nor.Mem}

theorem HeaderOf.imageOf (hf : HeaderOf hdr B) :
    ImageOf (accepted (fileHeaderOf hdr) hf.accepts.size) B :=
  ⟨rfl, rfl, rfl, hf.binLen, hf.long⟩

/-- Behind a valid header nothing of the image is taken in. -/
theorem resuming_of_header {s : Ota} {p : UgProc} (hs : Session s p) (hst : p.stat = .recvHeader)
    (hslot : SlotFits s.flash) (hmem : programBlocks ugStartAddr.toNat true B (Nor.execAll
      (eraseOps s.flash.cfg ugStartAddr (fileHeaderOf hdr).binLen) s.flash.mem) = F) :
    Resuming (accepted (fileHeaderOf hdr) hf.accepts.size) B F
      (({ s with ugProc := some (accepted (fileHeaderOf hdr) hf.accepts.size) }).guardedErase
        ugStartAddr (fileHeaderOf hdr).binLen) 0 := by
  have hfirst := (hs.header hst).2
  have herase := guardedErase_spec
    { s with ugProc := some (accepted (fileHeaderOf hdr) hf.accepts.size) } ugStartAddr
    (fileHeaderOf hdr).binLen
  refine ⟨?_, ?_, fun h0 => absurd h0 (Nat.lt_irrefl 0), Nat.zero_le _, Nat.dvd_zero _, ?_, ?_⟩
  · rw [ugProc_guardedErase, advance_zero]
  · rw [firstBlock_guardedErase]
    exact hfirst
  · unfold SlotFits
    rw [herase.cfg]
    exact hslot
  · rw [firstBlock_guardedErase, herase.mem, Nat.add_zero, List.drop_zero,
      show ({ s with ugProc := some (accepted (fileHeaderOf hdr) hf.accepts.size) }
        : Ota).firstBlock = true from hfirst]
    exact hmem

/-- A caller who waits for the header. -/
theorem presenting_header {s : Ota} {p : UgProc} {left chunk rest : List UInt8} (hs : Session s p)
    (hp : s.ugProc = some p) (hst : p.stat = .recvHeader) (hslot : SlotFits s.flash)
    (heq : left ++ chunk ++ rest = hdr ++ B)
    (hmem : programBlocks ugStartAddr.toNat true B (Nor.execAll
      (eraseOps s.flash.cfg ugStartAddr (fileHeaderOf hdr).binLen) s.flash.mem) = F) :
    Presenting hdr hf.accepts B F (presentStep (s, left) chunk).1 rest := by
  rcases present_waiting hf hp hst heq with ⟨hlt, hstep⟩ | ⟨extra, hB, hstep⟩
  · rw [hstep]
    exact .header s _ rest p hs hp hst hslot hlt heq hmem
  · rw [hstep]
    exact .image _ extra rest 0 (resuming_of_header hf hs hst hslot hmem) hB

/-- A packet takes the caller further, or back to the bytes that it has not taken in. -/
theorem presenting_step {c : Ota × List UInt8} {chunk rest : List UInt8}
    (h : Presenting hdr hf.accepts B F c (chunk ++ rest)) :
    Presenting hdr hf.accepts B F (presentStep c chunk).1 rest := by
  generalize hr : chunk ++ rest = r at h
  cases h with
  | header s left _ p hs hp hst hslot hleft heq hmem =>
    subst hr
    rw [← List.append_assoc] at heq
    exact presenting_header hf hs hp hst hslot heq hmem
  | image s left _ n h heq =>
    subst hr
    rw [← List.append_assoc] at heq
    obtain ⟨rc, r, s', hdp, hle, hout⟩ := h.packet hf.imageOf heq
    unfold presentStep
    dsimp only
    rw [hdp]
    dsimp only
    rw [Option.getD_some]
    rcases hout with ⟨h', -⟩ | ⟨rfl, rfl, hdone⟩
    · exact .image s' _ rest _ h' (drop_split heq (Nat.sub_le _ _))
    · rw [Nat.sub_zero, List.drop_length]
      exact .done s' hdone
  | done s h =>
    obtain ⟨rfl, rfl⟩ := List.append_eq_nil_iff.mp hr
    unfold presentStep
    dsimp only
    rw [List.append_nil, h.again]
    exact .done s h

/-- A run of packets takes the caller through all bytes of the chunks. -/
theorem presenting_final {chunks : List (List UInt8)} {rest : List UInt8} :
    ∀ {c : Ota × List UInt8}, Presenting hdr hf.accepts B F c (chunks.flatten ++ rest) →
      Presenting hdr hf.accepts B F (final presentStep c chunks) rest := by
  induction chunks with
  | nil => exact fun h => h
  | cons chunk chunks ih =>
    intro c h
    rw [List.flatten_cons, List.append_assoc] at h
    exact ih (presenting_step hf h)

/-- A finished session has taken in the image. -/
theorem Presenting.resumed {hacc : Accepts hdr} {c : Ota × List UInt8} {rest : List UInt8}
    (h : Presenting hdr hacc B F c rest) {q : UgProc} (hq : c.1.ugProc = some q)
    (hst : q.stat = .finish) :
    Resumed (accepted (fileHeaderOf hdr) hacc.size) B F c.1 := by
  cases h with
  | header s left _ p hs hp hst' =>
    obtain rfl := Option.some.inj (hp.symm.trans hq)
    rw [hst'] at hst
    cases hst
  | image s left _ n h =>
    obtain rfl := Option.some.inj (h.ugProc.symm.trans hq)
    cases hst
  | done s h => exact h

/-- With all bytes presented, one more call finishes the session or uses up a failure. -/
theorem presenting_again {c : Ota × List UInt8} (h : Presenting hdr hf.accepts B F c []) :
    let c' := (presentStep c []).1
    Resumed (accepted (fileHeaderOf hdr) hf.accepts.size) B F c'.1 ∨
      failures c'.1 < failures c.1 := by
  cases h with
  | header s left _ p hs hp hst hslot hleft heq =>
    have hlen := congrArg List.length heq
    have := hf.len
    simp only [List.length_append, List.length_nil] at hlen
    omega
  | image s left _ n h heq =>
    obtain ⟨rc, r, s', hdp, -, ⟨-, hrc⟩ | ⟨-, -, hdone⟩⟩ := h.packet hf.imageOf heq
    · have hproc := dataProcess_image h.ugProc
        (show ((accepted (fileHeaderOf hdr) hf.accepts.size).advance n).stat = _ from rfl) left
      have hlt := @recvImgData_failures s ((accepted (fileHeaderOf hdr) hf.accepts.size).advance n)
        left
      rw [← hproc, hdp] at hlt
      unfold presentStep
      dsimp only
      rw [List.append_nil, hdp]
      exact .inr (hlt (hrc rfl))
    · unfold presentStep
      dsimp only
      rw [List.append_nil, hdp]
      exact .inl hdone
  | done s h =>
    unfold presentStep
    dsimp only
    rw [List.append_nil, h.again]
    exact .inl h

/-- With all bytes presented, more calls than may fail finish the session. -/
theorem presenting_ends {n : Nat} : ∀ {c : Ota × List UInt8}, Presenting hdr hf.accepts B F c [] →
    (Resumed (accepted (fileHeaderOf hdr) hf.accepts.size) B F c.1 ∨ failures c.1 < n) →
    Resumed (accepted (fileHeaderOf hdr) hf.accepts.size) B F
      (final presentStep c (List.replicate n [])).1 := by
  induction n with
  | zero => exact fun _ h => h.resolve_right (Nat.not_lt_zero _)
  | succ n ih =>
    intro c h hleft
    rw [List.replicate_succ, final_cons]
    have hagain := presenting_again hf h
    refine ih (presenting_step hf h) ?_
    rcases hleft with hdone | hlt
    · -- a finished session stays so
      refine .inl ?_
      unfold presentStep
      dsimp only
      rw [hdone.again]
      exact hdone
    · exact hagain.imp_right fun hfewer => by omega

end Stream

/-! ## The same session -/

/-- The session and what it leaves in the flash are the same. -/
structure SameSession (s t : Ota) : Prop where
  ugProc : s.ugProc = t.ugProc
  firstBlock : s.firstBlock = t.firstBlock
  fristBlockDatabuf : s.fristBlockDatabuf = t.fristBlockDatabuf
  mem : s.flash.mem = t.flash.mem

theorem Block.eq_of_bytes {b b' : Block} (h : b.bytes = b'.bytes) : b = b' := by
  cases b
  cases b'
  cases h
  rfl

/-- Two sessions that have taken in the same image are the same. -/
theorem Resumed.same {p₀ : UgProc} {B : List UInt8} {F : Nor.Mem} {s t : Ota}
    (hs : Resumed p₀ B F s) (ht : Resumed p₀ B F t) : SameSession s t := by
  obtain ⟨b, hb, hbytes⟩ := hs.saved
  obtain ⟨b', hb', hbytes'⟩ := ht.saved
  obtain rfl : b = b' := Block.eq_of_bytes (hbytes.trans hbytes'.symm)
  exact ⟨hs.ugProc.trans ht.ugProc.symm, hs.first.trans ht.first.symm, hb.trans hb'.symm,
    hs.mem.trans ht.mem.symm⟩

/-- A session behind the boot and any calls that waits for its header, and an image of a block or
    more with its header. -/
structure Upload (s : Ota) (hdr B : List UInt8) : Prop where
  session : ∃ p, s.ugProc = some p ∧ p.stat = .recvHeader ∧ Session s p
  slot : SlotFits s.flash
  image : HeaderOf hdr B

/-- The contents that a session leaves which presents the image. -/
def installed (s : Ota) (hdr B : List UInt8) : Nor.Mem :=
  programBlocks ugStartAddr.toNat true B (Nor.execAll
    (eraseOps s.flash.cfg ugStartAddr (fileHeaderOf hdr).binLen) s.flash.mem)

theorem Upload.presenting {s : Ota} {hdr B : List UInt8} (h : Upload s hdr B) (m : List Bool)
    (w : List WriteFate) {chunks : List (List UInt8)} (hchunks : chunks.flatten = hdr ++ B) :
    Presenting hdr h.image.accepts B (installed s hdr B)
      (final presentStep ({ s with mallocs := m, writes := w }, []) chunks) [] := by
  obtain ⟨p, hp, hst, hs⟩ := h.session
  refine presenting_final h.image ?_
  rw [List.append_nil, hchunks]
  exact .header _ [] _ p (hs.congr rfl rfl) hp hst h.slot (by decide) rfl rfl

/-- Behind the boot and any calls, a session that waits for its header, an image of a block or
    more with its header, and any allocations and writes that fail while it is presented: when the
    session is finished it is, with its contents of the flash, that of every run without failures,
    however the image has been cut in either. -/
theorem ota_resumes (flash : FlashDev) (mallocs : List Bool) (writes : List WriteFate)
    (lowMem : Nor.Mem → Block) (cs : List OtaCall) {p : UgProc} {hdr B : List UInt8}
    (hp : (final otaStep (Ota.boot flash mallocs writes lowMem) cs).ugProc = some p)
    (hst : p.stat = .recvHeader) (hslot : SlotFits flash) (hf : HeaderOf hdr B)
    (failing : List Bool × List WriteFate) {chunks chunks₀ : List (List UInt8)}
    (hchunks : chunks.flatten = hdr ++ B) (hchunks₀ : chunks₀.flatten = hdr ++ B) :
    let s := final otaStep (Ota.boot flash mallocs writes lowMem) cs
    let c := final presentStep ({ s with mallocs := failing.1, writes := failing.2 }, []) chunks
    let c₀ := final presentStep ({ s with mallocs := [], writes := [] }, []) (chunks₀ ++ [[]])
    (∃ q, c₀.1.ugProc = some q ∧ q.stat = .finish) ∧
      (∃ q, (final presentStep c (List.replicate (failures c.1 + 1) [])).1.ugProc = some q ∧
        q.stat = .finish) ∧
      ∀ q, c.1.ugProc = some q → q.stat = .finish → SameSession c.1 c₀.1 := by
  intro s c c₀
  have hv := valid_boot flash mallocs writes lowMem
  have hs : Session s p := final_valid hv cs p hp
  have hup : Upload s hdr B := by
    refine ⟨⟨p, hp, hst, hs⟩, ?_, hf⟩
    unfold SlotFits
    rw [(final_guarded hv cs).cfg]
    exact hslot
  have hc : Presenting hdr hf.accepts B (installed s hdr B) c [] :=
    hup.presenting failing.1 failing.2 hchunks
  have hc₀ : Presenting hdr hf.accepts B (installed s hdr B) c₀ [] :=
    hup.presenting [] [] (by
      rw [List.flatten_append, hchunks₀, List.flatten_singleton, List.append_nil])
  -- without failures the image is complete
  have hload := (@final_uploading hdr B hf ({ s with mallocs := [], writes := [] }, []) chunks₀ []
    (by rw [List.append_nil, hchunks₀]
        exact .header _ _ _ p rfl rfl (hs.congr rfl rfl) hp hst (by decide) rfl)).1
  obtain ⟨s', q, heq, hcomplete, -⟩ := present_last hf hload
  have hq : c₀.1.ugProc = some q := by
    show (final presentStep _ (chunks₀ ++ [[]])).1.ugProc = _
    rw [final_append, final_cons, final_nil, heq]
    exact hcomplete.ugProc
  have hends := presenting_ends hf hc (.inr (Nat.lt_succ_self (failures c.1)))
  exact ⟨⟨q, hq, hcomplete.stat⟩, ⟨_, hends.ugProc, rfl⟩,
    fun q' hq' hst' => (hc.resumed hq' hst').same (hc₀.resumed hq hcomplete.stat)⟩

/-- The sample image whose dummy buffer has no memory at first, and whose first write fails. -/
theorem ota_resumes_sample :
    let s := final otaStep (Ota.boot blankFlash [] [] fun _ => erasedBlock) [.startNotify 1]
    let failing : List Bool × List WriteFate := ([true, false], [.fail [0x0F], .ok, .fail []])
    let c := final presentStep ({ s with mallocs := failing.1, writes := failing.2 }, [])
      [sampleHeader, samplePack.data, []]
    let c₀ := final presentStep ({ s with mallocs := [], writes := [] }, [])
      ([sampleHeader ++ samplePack.data] ++ [[]])
    (∃ q, c₀.1.ugProc = some q ∧ q.stat = .finish) ∧
      (∃ q, (final presentStep c (List.replicate (failures c.1 + 1) [])).1.ugProc = some q ∧
        q.stat = .finish) ∧
      ∀ q, c.1.ugProc = some q → q.stat = .finish → SameSession c.1 c₀.1 :=
  ota_resumes blankFlash [] [] (fun _ => erasedBlock) [.startNotify 1] rfl rfl slotFits_blank
    (validHeader_sample.headerOf (Nat.le_of_eq length_samplePack.symm)
      (by rw [length_samplePack]; decide))
    ([true, false], [.fail [0x0F], .ok, .fail []])
    (by simp only [List.flatten_cons, List.flatten_nil, List.append_nil])
    (by rw [List.flatten_singleton])

end ArduinoT2.Ota
