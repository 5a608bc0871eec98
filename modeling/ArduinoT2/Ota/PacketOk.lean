import ArduinoT2.Ota.Session

/-
  A packet of the image when nothing fails.

  `blockLoop_ok` says which blocks the loop passes and what it programs, `recvImgData_ok` what a
  packet within the image does: it passes its whole blocks, or all its bytes if they are the last
  of the image, and leaves the others to the caller.
-/

namespace ArduinoT2.Ota

open ArduinoT2.Vendor ArduinoT2.Adapter

/-! ## One block -/

/-- What a block changes when nothing fails: the first one is saved, and dummy data take its
    place in the flash. -/
structure BlockOk (s : Ota) (p : UgProc) (blk : Block) (s' : Ota) : Prop where
  mallocs : s'.mallocs = []
  writes : s'.writes = s.writes.tail
  lowMem : s'.lowMem = s.lowMem
  ugProc : s'.ugProc = s.ugProc
  first : s'.firstBlock = false
  frist : s'.fristBlockDatabuf = if s.firstBlock then some blk else s.fristBlockDatabuf
  cfg : s'.flash.cfg = s.flash.cfg
  mem : s'.flash.mem = if s.flash.InRange p.flashAddr.toNat rtImgWrUnit
    then (Nor.Op.program p.flashAddr.toNat
      (if s.firstBlock then erasedBlock else blk).bytes).exec s.flash.mem else s.flash.mem

/-- A bracketed write that does not fail. -/
theorem guardedWrite_ok {s : Ota} (hf : fate s = .ok) (addr : UInt32) (src : List UInt8) :
    (s.guardedWrite addr src).1 = oprtOk ∧
    (s.guardedWrite addr src).2.flash.cfg = s.flash.cfg ∧
    (s.guardedWrite addr src).2.flash.mem = if s.flash.InRange addr.toNat src.length
      then (Nor.Op.program addr.toNat src).exec s.flash.mem else s.flash.mem := by
  obtain ⟨ops, h⟩ := guardedWrite_spec s addr src
  obtain ⟨hrc, hw⟩ := h.ok hf
  exact ⟨hrc, h.executes.cfg, h.executes.mem.trans hw.effect⟩

theorem writeBlock_ok {s : Ota} (hm : s.mallocs = []) (hf : fate s = .ok) (p : UgProc)
    (buf : Bool) (blk : Block) :
    ∃ s' buf', writeBlock s p buf blk = .ok (s', buf') ∧ BlockOk s p blk s' := by
  unfold writeBlock
  cases hfirst : s.firstBlock with
  | true =>
    rw [if_pos rfl]
    rcases saveFirstBlock_cases s blk with ⟨_, hno⟩ | ⟨s₁, hsave, hbuf, hfl, hug, _, hlow, hwr, hm₁⟩
    · rw [malloc_nil hm] at hno
      cases hno
    · rw [hsave]
      dsimp only
      have hmal := malloc_nil (hm₁ hm)
      have hf₁ : fate s₁.malloc.2 = .ok := by
        unfold fate at hf ⊢
        rwa [writes_malloc, hwr]
      obtain ⟨hrc, hcfg, hmem⟩ := guardedWrite_ok hf₁ p.flashAddr (List.replicate rtImgWrUnit 0xFF)
      rw [if_pos (by rw [hmal]), if_neg (not_not.mpr hrc)]
      refine ⟨_, _, rfl, ⟨?_, ?_, by simpa using hlow, by simpa using hug, rfl, ?_, ?_, ?_⟩⟩
      · rw [mallocs_guardedWrite, hmal]
        exact hm₁ hm
      · simp [hwr]
      · rw [if_pos hfirst]
        simpa using hbuf
      · rw [hcfg, flash_malloc, hfl]
      · rw [hmem, flash_malloc, hfl, List.length_replicate, if_pos hfirst]
        rfl
  | false =>
    rw [if_neg Bool.false_ne_true]
    obtain ⟨hrc, hcfg, hmem⟩ := guardedWrite_ok hf p.flashAddr blk.bytes
    dsimp only
    rw [if_neg (not_not.mpr hrc)]
    rw [blk.len] at hmem
    refine ⟨_, _, rfl, ⟨by simpa using hm, by simp, by simp, by simp, by simpa using hfirst,
      by simp [hfirst], hcfg, ?_⟩⟩
    rw [hmem, hfirst, if_neg Bool.false_ne_true]

/-! ## The blocks of a packet -/

/-- The bytes in whole blocks at the front of a packet of `n` bytes. -/
def whole (n : Nat) : Nat := rtImgWrUnit * (n / rtImgWrUnit)

theorem whole_le (n : Nat) : whole n ≤ n := Nat.mul_div_le n rtImgWrUnit

theorem lt_whole_add (n : Nat) : n < whole n + rtImgWrUnit := by
  simp only [whole, rtImgWrUnit]
  omega

theorem whole_add_unit {n : Nat} (h : rtImgWrUnit ≤ n) :
    rtImgWrUnit + whole (n - rtImgWrUnit) = whole n := by
  simp only [whole, rtImgWrUnit] at *
  omega

/-- The bytes at the front of the image that the flash does not get. -/
def skipped (first : Bool) : Nat := if first then rtImgWrUnit else 0

/-- Programming a packet's blocks: all of them, but for the first one of the image. -/
def programBlocks (addr : Nat) (first : Bool) (bytes : List UInt8) (m : Nor.Mem) : Nor.Mem :=
  (Nor.Op.program (addr + skipped first) (bytes.drop (skipped first))).exec m

theorem programBlocks_nil (addr : Nat) (first : Bool) (m : Nor.Mem) :
    programBlocks addr first [] m = m := by
  unfold programBlocks
  rw [List.drop_nil, Nor.program_nil]

theorem program_erasedBlock (addr : Nat) (m : Nor.Mem) :
    (Nor.Op.program addr erasedBlock.bytes).exec m = m := by
  funext a
  rw [Nor.program_exec]
  split
  · rw [List.getD_eq_getElem?_getD]
    cases hg : erasedBlock.bytes[a - addr]? with
    | none => exact Nor.and_ff _
    | some b =>
      rw [List.eq_of_mem_replicate (List.mem_of_getElem? hg)]
      exact Nor.and_ff _
  · rfl

/-- One block and the blocks behind it. -/
theorem programBlocks_cons (addr : Nat) (first : Bool) (blk : Block) (bytes : List UInt8)
    (m : Nor.Mem) : programBlocks addr first (blk.bytes ++ bytes) m =
      programBlocks (addr + rtImgWrUnit) false bytes
        ((Nor.Op.program addr (if first then erasedBlock else blk).bytes).exec m) := by
  unfold programBlocks skipped
  cases first with
  | true =>
    simp only [if_true, Bool.false_eq_true, if_false]
    rw [program_erasedBlock, List.drop_left' blk.len]
    rfl
  | false =>
    simp only [Bool.false_eq_true, if_false, Nat.add_zero, List.drop_zero]
    rw [Nor.program_append, blk.len]

/-- The loop when nothing fails: it passes all whole blocks. -/
structure LoopOk (s : Ota) (p : UgProc) (rest : List UInt8) (s' : Ota) : Prop
    extends LoopStep s p rest (whole rest.length) s' where
  mallocs : s'.mallocs = []
  writesNil : s'.writes = []
  cfg : s'.flash.cfg = s.flash.cfg
  mem : p.flashAddr.toNat % 32 = 0 →
    p.flashAddr.toNat + whole rest.length ≤ s.flash.cfg.flashSize →
    s'.flash.mem = programBlocks p.flashAddr.toNat s.firstBlock (rest.take (whole rest.length))
      s.flash.mem

theorem blockLoop_mem {s : Ota} (hm : s.mallocs = []) (hw : s.writes = []) (p : UgProc)
    (buf : Bool) (rest : List UInt8) : ∃ s' p' buf' rest',
      blockLoop s p buf rest = .ok (s', p', buf', rest') ∧ s'.mallocs = [] ∧ s'.writes = [] ∧
      s'.flash.cfg = s.flash.cfg ∧ (p.flashAddr.toNat % 32 = 0 →
        p.flashAddr.toNat + whole rest.length ≤ s.flash.cfg.flashSize → s'.flash.mem =
        programBlocks p.flashAddr.toNat s.firstBlock (rest.take (whole rest.length))
          s.flash.mem) := by
  induction hn : rest.length using Nat.strong_induction_on generalizing s p buf rest with
  | _ n ih =>
    subst hn
    rw [blockLoop]
    split
    · rename_i h
      have hpos : 0 < rtImgWrUnit := by decide
      have hlen : (rest.drop rtImgWrUnit).length = rest.length - rtImgWrUnit := List.length_drop
      obtain ⟨s₁, buf₁, hwr, hb⟩ := writeBlock_ok hm (by unfold fate; rw [hw]; rfl) p buf
        ⟨rest.take rtImgWrUnit, List.length_take_of_le h⟩
      rw [hwr]
      obtain ⟨s₂, p₂, buf₂, rest₂, heq, hm₂, hw₂, hcfg₂, hmem₂⟩ := ih _ (by omega)
        (s := { s₁ with ugProc := some (p.advance rtImgWrUnit) }) hb.mallocs
        (by rw [hb.writes, hw]; rfl) (p.advance rtImgWrUnit) buf₁ (rest.drop rtImgWrUnit) hlen
      refine ⟨s₂, p₂, buf₂, rest₂, heq, hm₂, hw₂, hcfg₂.trans hb.cfg, fun haddr hfit => ?_⟩
      have hsize := flashSize_le s.flash
      have hwhole := whole_add_unit h
      have haddr₁ : (p.advance rtImgWrUnit).flashAddr.toNat = p.flashAddr.toNat + rtImgWrUnit := by
        rw [flashAddr_advance, UInt32.toNat_add, UInt32.toNat_ofNat']
        simp only [rtImgWrUnit] at *
        omega
      have hin : s.flash.InRange p.flashAddr.toNat rtImgWrUnit := by
        unfold FlashDev.InRange
        omega
      rw [haddr₁, hb.cfg] at hmem₂
      rw [hmem₂ (by simp only [rtImgWrUnit]; omega) (by omega), hb.mem, if_pos hin, hb.first,
        ← programBlocks_cons, ← hwhole, List.take_add]
    · rename_i h
      refine ⟨s, p, buf, rest, rfl, hm, hw, rfl, fun _ _ => ?_⟩
      rw [show whole rest.length = 0 by simp only [whole, Nat.div_eq_of_lt (Nat.lt_of_not_le h),
        Nat.mul_zero], List.take_zero, programBlocks_nil]

theorem blockLoop_ok {s : Ota} (hm : s.mallocs = []) (hw : s.writes = []) (p : UgProc)
    (buf : Bool) (rest : List UInt8) : ∃ s' buf', LoopOk s p rest s' ∧
      blockLoop s p buf rest =
        .ok (s', p.advance (whole rest.length), buf', rest.drop (whole rest.length)) := by
  obtain ⟨s', p', buf', rest', heq, hm', hw', hcfg, hmem⟩ := blockLoop_mem hm hw p buf rest
  obtain ⟨k, s₂, hl, hend⟩ := blockLoop_step s p buf rest
  rcases hend with ⟨herr, _⟩ | ⟨hlt, buf₂, hok⟩
  · rw [heq] at herr
    cases herr
  · have hk : k = whole rest.length := by
      have hle := hl.le
      have hdvd := hl.dvd
      simp only [whole, rtImgWrUnit] at *
      omega
    subst hk
    rw [heq] at hok
    cases hok
    exact ⟨_, _, ⟨hl, hm', hw', hcfg, hmem⟩, heq⟩

/-! ## One packet -/

/-- The bytes that a packet of `n` bytes takes in: all of them when they are the last of the
    image, else its whole blocks. -/
def taken (p : UgProc) (n : Nat) : Nat :=
  if p.recvDataCnt.toNat + n = p.fileHeader.binLen.toNat then n else whole n

/-- The session behind a packet of `n` bytes. -/
def moved (p : UgProc) (n : Nat) : UgProc :=
  if p.recvDataCnt.toNat + n = p.fileHeader.binLen.toNat then finished p n
  else p.advance (whole n)

/-- What a packet within the image changes when nothing fails. -/
structure PacketOk (s : Ota) (p : UgProc) (data : List UInt8) (s' : Ota) : Prop
    extends Passed s data (whole data.length) s' where
  mallocs : s'.mallocs = []
  writesNil : s'.writes = []
  cfg : s'.flash.cfg = s.flash.cfg
  ugProc : s'.ugProc = some (moved p data.length)
  mem : p.flashAddr.toNat % 32 = 0 →
    p.flashAddr.toNat + data.length ≤ s.flash.cfg.flashSize →
    s'.flash.mem = programBlocks p.flashAddr.toNat s.firstBlock
      (data.take (taken p data.length)) s.flash.mem

/-- Blocks and the bytes behind them. -/
theorem programBlocks_append {addr : Nat} {first : Bool} {xs : List UInt8} (ys : List UInt8)
    (m : Nor.Mem) (h : first = true → rtImgWrUnit ≤ xs.length) :
    programBlocks addr first (xs ++ ys) m =
      (Nor.Op.program (addr + xs.length) ys).exec (programBlocks addr first xs m) := by
  have hskip : skipped first ≤ xs.length := by
    unfold skipped
    split
    · exact h ‹_›
    · exact Nat.zero_le _
  unfold programBlocks
  rw [List.drop_append_of_le_length hskip, Nor.program_append, List.length_drop]
  congr 2
  omega

section Packet

variable {s s₁ : Ota} {p : UgProc} {data : List UInt8}

/-- Within the image the counter does not wrap around. -/
theorem recvDataCnt_within {n k : Nat}
    (hn : p.recvDataCnt.toNat + n ≤ p.fileHeader.binLen.toNat) (hk : k ≤ n) :
    (p.advance k).recvDataCnt.toNat = p.recvDataCnt.toNat + k := by
  have hfits := p.fits
  rw [recvDataCnt_advance, UInt32.toNat_add, UInt32.toNat_ofNat']
  simp only [otaMaxBinSize] at hfits
  omega

/-- With a block or more the subtraction of `RT_IMG_WR_UNIT` does not wrap around. -/
theorem binLen_sub_unit (hlong : rtImgWrUnit ≤ p.fileHeader.binLen.toNat) :
    (p.fileHeader.binLen - UInt32.ofNat rtImgWrUnit).toNat =
      p.fileHeader.binLen.toNat - rtImgWrUnit := by
  have hfits := p.fits
  rw [UInt32.toNat_sub, UInt32.toNat_ofNat']
  simp only [rtImgWrUnit, otaMaxBinSize] at *
  omega

/-- The bytes behind the blocks are taken in when they reach the end of the image. -/
theorem takesTail_iff {n : Nat} (hlong : rtImgWrUnit ≤ p.fileHeader.binLen.toNat)
    (hn : p.recvDataCnt.toNat + n ≤ p.fileHeader.binLen.toNat) :
    TakesTail p n (whole n) ↔ p.recvDataCnt.toNat + n = p.fileHeader.binLen.toNat := by
  have hfits := p.fits
  have hle := whole_le n
  have hlt := lt_whole_add n
  unfold TakesTail
  rw [UInt32.lt_iff_toNat_lt, binLen_sub_unit hlong, UInt32.toNat_sub, recvDataCnt_within hn hle]
  simp only [rtImgWrUnit, otaMaxBinSize] at *
  omega

/-- Less than a block that is not the end of the image waits for more. -/
theorem packetOk_waits (hm : s.mallocs = []) (hw : s.writes = []) (hp : s.ugProc = some p)
    (hlt : data.length < rtImgWrUnit)
    (hne : p.recvDataCnt.toNat + data.length ≠ p.fileHeader.binLen.toNat) :
    taken p data.length = 0 ∧ PacketOk s p data s := by
  have hwhole : whole data.length = 0 := by
    simp only [whole, Nat.div_eq_of_lt hlt, Nat.mul_zero]
  have htaken : taken p data.length = 0 := by rw [taken, if_neg hne, hwhole]
  refine ⟨htaken, ⟨?_, hm, hw, rfl, ?_, fun _ _ => ?_⟩⟩
  · rw [hwhole]
    exact .refl s data
  · rw [moved, if_neg hne, hwhole, advance_zero, hp]
  · rw [htaken, List.take_zero, programBlocks_nil]

/-- What the write of the bytes behind the blocks leaves in the flash: it is dropped only when
    there are none. -/
theorem LoopOk.mem_tail (hl : LoopOk s p data s₁) (hlong : rtImgWrUnit ≤ p.fileHeader.binLen.toNat)
    (hfirst : s.firstBlock = true → p.recvDataCnt = 0)
    (hend : p.recvDataCnt.toNat + data.length = p.fileHeader.binLen.toNat)
    (haddr : p.flashAddr.toNat % 32 = 0)
    (hfit : p.flashAddr.toNat + data.length ≤ s.flash.cfg.flashSize) {m : Nor.Mem}
    (hm : m = if s₁.flash.InRange (p.advance (whole data.length)).flashAddr.toNat
        (data.drop (whole data.length)).length
      then (Nor.Op.program (p.advance (whole data.length)).flashAddr.toNat
        (data.drop (whole data.length))).exec s₁.flash.mem
      else s₁.flash.mem) :
    m = programBlocks p.flashAddr.toNat s.firstBlock data s.flash.mem := by
  have hsize := flashSize_le s.flash
  have hle := whole_le data.length
  have htake : (data.take (whole data.length)).length = whole data.length :=
    List.length_take_of_le hle
  have haddr' : (p.advance (whole data.length)).flashAddr.toNat =
      p.flashAddr.toNat + whole data.length := by
    rw [flashAddr_advance, UInt32.toNat_add, UInt32.toNat_ofNat']
    omega
  -- an image of a block or more does not end before its first block is whole
  have hblock : s.firstBlock = true → rtImgWrUnit ≤ whole data.length := by
    intro hf
    have hzero := congrArg UInt32.toNat (hfirst hf)
    rw [UInt32.toNat_zero] at hzero
    simp only [whole, rtImgWrUnit] at *
    omega
  have hsplit := @programBlocks_append p.flashAddr.toNat s.firstBlock
    (data.take (whole data.length)) (data.drop (whole data.length)) s.flash.mem
    (fun hf => htake.symm ▸ hblock hf)
  rw [List.take_append_drop, htake, ← hl.mem haddr (by omega), ← haddr'] at hsplit
  rw [hm, hsplit]
  split
  · rfl
  · rename_i hout
    have hnil : data.drop (whole data.length) = [] := by
      refine List.drop_eq_nil_of_le (Nat.le_of_not_lt fun hrem => hout ?_)
      have hlt := lt_whole_add data.length
      unfold FlashDev.InRange
      rw [hl.cfg, haddr', List.length_drop]
      simp only [whole, rtImgWrUnit] at *
      omega
    rw [hnil, Nor.program_nil]

/-- Behind the blocks, when the packet ends the image. -/
theorem LoopOk.tail_last (hl : LoopOk s p data s₁) (buf : Bool)
    (hfirst : s.firstBlock = true → p.recvDataCnt = 0)
    (hlong : rtImgWrUnit ≤ p.fileHeader.binLen.toNat)
    (hend : p.recvDataCnt.toNat + data.length = p.fileHeader.binLen.toNat) :
    ∃ s', PacketOk s p data s' ∧
      recvTail s₁ (p.advance (whole data.length)) buf (data.drop (whole data.length)) =
        (⟨oprtOk, some 0⟩, s') := by
  have hle := whole_le data.length
  have hrest : (data.drop (whole data.length)).length = data.length - whole data.length :=
    List.length_drop
  have htail := (takesTail_iff hlong (Nat.le_of_eq hend)).mpr hend
  have hok : fate s₁ = .ok := by
    unfold fate
    rw [hl.writesNil]
    rfl
  obtain ⟨hrc, hcfg, hmem⟩ := guardedWrite_ok hok (p.advance (whole data.length)).flashAddr
    (data.drop (whole data.length))
  have hall : (p.advance data.length).fileHeader.binLen ≤ (p.advance data.length).recvDataCnt := by
    rw [UInt32.le_iff_toNat_le, recvDataCnt_within (Nat.le_of_eq hend) (Nat.le_refl _), hend]
    exact Nat.le_refl _
  unfold recvTail
  rw [if_pos (by rw [hrest]; exact htail)]
  dsimp only
  rw [if_neg (not_not.mpr hrc), hrest, advance_advance, Nat.add_sub_cancel' hle]
  unfold finishCheck
  rw [if_pos hall]
  refine ⟨_, ?_, rfl⟩
  refine ⟨hl.congr (by simp) ?_ (by simp) (by simp), ?_, ?_, ?_, ?_, fun haddr hfit => ?_⟩
  · simp [hl.writesNil]
  · simpa using hl.mallocs
  · simp [hl.writesNil]
  · rw [flash_freeIf]
    exact hcfg.trans hl.cfg
  · rw [moved, if_pos hend, ugProc_freeIf]
    rfl
  · rw [taken, if_pos hend, List.take_length, flash_freeIf]
    exact hl.mem_tail hlong hfirst hend haddr hfit hmem

/-- Behind the blocks, when the image goes on. -/
theorem LoopOk.tail_more (hl : LoopOk s p data s₁) (buf : Bool) (hp : s.ugProc = some p)
    (hlong : rtImgWrUnit ≤ p.fileHeader.binLen.toNat)
    (hn : p.recvDataCnt.toNat + data.length ≤ p.fileHeader.binLen.toNat)
    (hne : p.recvDataCnt.toNat + data.length ≠ p.fileHeader.binLen.toNat) :
    PacketOk s p data s₁ ∧
      recvTail s₁ (p.advance (whole data.length)) buf (data.drop (whole data.length)) =
        (⟨oprtOk, some (data.length - whole data.length)⟩, s₁) := by
  have hle := whole_le data.length
  have hrest : (data.drop (whole data.length)).length = data.length - whole data.length :=
    List.length_drop
  have htail : ¬ TakesTail p data.length (whole data.length) :=
    fun h => hne ((takesTail_iff hlong hn).mp h)
  have hnot : ¬ (p.advance (whole data.length)).fileHeader.binLen ≤
      (p.advance (whole data.length)).recvDataCnt := by
    rw [UInt32.le_iff_toNat_le, recvDataCnt_within hn hle]
    exact fun h => hne (by
      have : p.fileHeader.binLen.toNat ≤ p.recvDataCnt.toNat + whole data.length := h
      omega)
  refine ⟨⟨hl.toPassed, hl.mallocs, hl.writesNil, hl.cfg, ?_, fun haddr hfit => ?_⟩, ?_⟩
  · rw [moved, if_neg hne, hl.ugProc hp]
  · rw [taken, if_neg hne, hl.mem haddr (by omega)]
  · unfold recvTail
    rw [if_neg (by rw [hrest]; exact htail), hrest]
    unfold finishCheck
    rw [if_neg hnot]

/-- A packet within an image of a block or more is taken in as far as `taken` says, and the
    caller is told how many bytes are left. -/
theorem recvImgData_ok (hm : s.mallocs = []) (hw : s.writes = []) (hp : s.ugProc = some p)
    (hfirst : s.firstBlock = true → p.recvDataCnt = 0)
    (hlong : rtImgWrUnit ≤ p.fileHeader.binLen.toNat)
    (hn : p.recvDataCnt.toNat + data.length ≤ p.fileHeader.binLen.toNat) :
    ∃ s', PacketOk s p data s' ∧ recvImgData s p data =
      (⟨oprtOk, some (data.length - taken p data.length)⟩, s') := by
  unfold recvImgData
  simp only [UInt32.le_iff_toNat_le, binLen_sub_unit hlong]
  split
  · rename_i hwait
    obtain ⟨htaken, hpk⟩ := packetOk_waits hm hw hp hwait.1 (by omega)
    rw [htaken, Nat.sub_zero]
    exact ⟨s, hpk, rfl⟩
  · obtain ⟨s₁, buf, hl, hloop⟩ := blockLoop_ok hm hw p false data
    rw [hloop]
    by_cases hend : p.recvDataCnt.toNat + data.length = p.fileHeader.binLen.toNat
    · rw [taken, if_pos hend, Nat.sub_self]
      exact hl.tail_last buf hfirst hlong hend
    · rw [taken, if_neg hend]
      exact ⟨s₁, hl.tail_more buf hp hlong hn hend⟩

end Packet

end ArduinoT2.Ota
