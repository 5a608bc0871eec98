import ArduinoT2.Lib.StepSys
import ArduinoT2.Ota.EndNotify

/-
  The session between calls, and what a call does to the flash.

  `Session s p` is the invariant of a session `p` in the state `s`, whatever calls came before
  and whatever failed in them (`otaStep_valid`, `final_valid`). `CallOp s c` are the flash
  operations that the call `c` may issue in the state `s` (`otaStep_guarded`).
-/

namespace ArduinoT2.Ota

open ArduinoT2.Vendor ArduinoT2.Adapter StepSys

theorem ugStartAddr_toNat : ugStartAddr.toNat = 0x12A000 := rfl

/-! ## The header -/

/-- The session behind an accepted header. -/
def accepted (hdr : UpdateFileHdr) (h : hdr.binLen.toNat < otaMaxBinSize) : UgProc where
  fileHeader := hdr
  flashAddr := ugStartAddr
  startAddr := ugStartAddr
  recvDataCnt := 0
  stat := .recvImgData
  fits := h

/-- The header at the front of the packet is valid. -/
structure Accepts (data : List UInt8) : Prop where
  len : hdrSize ≤ data.length
  head : (fileHeaderOf data).headerFlag = ugPkgHead
  tail : (fileHeaderOf data).tailFlag = ugPkgTail
  sum : (fileHeaderOf data).headSum = addBytes 0 (data.take (hdrSize - 8))
  size : (fileHeaderOf data).binLen.toNat < otaMaxBinSize

/-- The header of an image of 512 bytes `0x01`. -/
def sampleHeader : List UInt8 :=
  [0x55, 0xaa, 0x55, 0xaa] ++ List.replicate 12 0 ++
    [0x00, 0x00, 0x02, 0x00, 0x00, 0x00, 0x02, 0x00, 0x00, 0x00, 0x02, 0x02,
      0xaa, 0x55, 0xaa, 0x55]

theorem length_sampleHeader : sampleHeader.length < 2 ^ 32 := by decide

theorem accepts_sampleHeader : Accepts sampleHeader :=
  ⟨by decide, by decide, by decide, by decide, by decide⟩

/-- The case `UGS_RECV_HEADER`: too short a packet is left to the caller, an invalid header is
    wiped, a valid one starts the image. -/
theorem recvHeader_cases (s : Ota) (p : UgProc) (data : List UInt8) :
    (data.length < hdrSize ∧ recvHeader s p data = (⟨oprtOk, some data.length⟩, s)) ∨
    (¬ Accepts data ∧ (recvHeader s p data).2 = { s with ugProc := some p.wipeHeader }) ∨
    (∃ h : Accepts data, recvHeader s p data = (⟨oprtOk, some (data.length - hdrSize)⟩,
      ({ s with ugProc := some (accepted _ h.size) }).guardedErase ugStartAddr
        (fileHeaderOf data).binLen)) := by
  unfold recvHeader
  split
  · exact .inl ⟨‹_›, rfl⟩
  · rename_i hlen
    dsimp only
    split
    · rename_i hbad
      refine .inr (.inl ⟨fun h => ?_, rfl⟩)
      rcases hbad with hbad | hbad | hbad
      · exact hbad h.head
      · exact hbad h.tail
      · exact hbad h.sum
    · rename_i hgood
      push Not at hgood
      split
      · rename_i hbig
        exact .inr (.inl ⟨fun h => absurd h.size (Nat.not_lt.mpr hbig), rfl⟩)
      · rename_i hbig
        exact .inr (.inr ⟨⟨Nat.le_of_not_lt hlen, hgood.1, hgood.2.1, hgood.2.2,
          Nat.lt_of_not_le hbig⟩, rfl⟩)

/-! ## The invariant of a session -/

/-- What holds of a session between calls. The first block is due until a block has been
    written; from then on the block is saved. -/
structure Session (s : Ota) (p : UgProc) : Prop where
  header : p.stat = .recvHeader → p = .zero ∧ s.firstBlock = true
  image : p.stat ≠ .recvHeader →
    p.startAddr = ugStartAddr ∧ p.flashAddr = ugStartAddr + p.recvDataCnt
  first : p.stat = .recvImgData → s.firstBlock = true → p.recvDataCnt = 0
  finish : p.stat = .finish → p.fileHeader.binLen ≤ p.recvDataCnt ∧ s.firstBlock = false
  saved : s.firstBlock = false → s.fristBlockDatabuf.isSome

/-- The session, if there is one, satisfies the invariant. -/
def Valid (s : Ota) : Prop := ∀ p, s.ugProc = some p → Session s p

theorem valid_boot (flash : FlashDev) (mallocs : List Bool) (writes : List WriteFate)
    (lowMem : Nor.Mem → Block) : Valid (Ota.boot flash mallocs writes lowMem) := by
  intro p hp
  cases hp

theorem session_zero {s : Ota} (h : s.firstBlock = true) : Session s .zero where
  header _ := ⟨rfl, h⟩
  image hne := absurd rfl hne
  first hst := by cases hst
  finish hst := by cases hst
  saved hf := by rw [h] at hf; cases hf

theorem wipeHeader_zero : UgProc.zero.wipeHeader = .zero := rfl

theorem Session.startAddr_toNat_le {s : Ota} {p : UgProc} (h : Session s p) :
    p.startAddr.toNat ≤ ugStartAddr.toNat := by
  cases hst : p.stat with
  | recvHeader =>
    rw [(h.header hst).1]
    exact Nat.zero_le _
  | recvImgData => rw [(h.image (by simp [hst])).1]
  | finish => rw [(h.image (by simp [hst])).1]

theorem Session.fits {s : Ota} {p : UgProc} (h : Session s p) :
    p.startAddr.toNat + p.fileHeader.binLen.toNat < 2 ^ 32 := by
  have h1 := h.startAddr_toNat_le
  have h2 := p.fits
  have h3 := ugStartAddr_toNat
  simp only [otaMaxBinSize] at h2
  omega

/-- Behind its first block a session has saved it. -/
theorem Passed.saved {s s' : Ota} {data : List UInt8} {k : Nat} (hi : Passed s data k s')
    (h : s.firstBlock = false → s.fristBlockDatabuf.isSome) (hf : s'.firstBlock = false) :
    s'.fristBlockDatabuf.isSome := by
  have hfr := hi.frist
  have hfirst := hi.first
  rw [hf] at hfirst
  cases hb : s.firstBlock with
  | true =>
    rw [hb, if_pos rfl] at hfr
    rw [hb] at hfirst
    obtain ⟨blk, _, hblk⟩ := hfr (Nat.pos_of_ne_zero (by simpa using hfirst.symm))
    rw [hblk]
    rfl
  | false =>
    rw [hb, if_neg Bool.false_ne_true] at hfr
    rw [hfr]
    exact h hb

/-- A session that has passed `k` bytes in blocks, and perhaps is finished behind some more. -/
theorem ImgStep.session {s s' : Ota} {p : UgProc} {data : List UInt8} {k : Nat}
    (h : Session s p) (hst : p.stat = .recvImgData) (hi : ImgStep s p data k s') : Valid s' := by
  obtain ⟨hstart, haddr⟩ := h.image (by simp [hst])
  have hmove : ∀ m, (p.advance m).flashAddr = ugStartAddr + (p.advance m).recvDataCnt := by
    intro m
    rw [flashAddr_advance, recvDataCnt_advance, haddr, UInt32.add_assoc]
  have hsaved := hi.toPassed.saved h.saved
  intro q hq
  rcases hi.ugProc with ⟨hug, _⟩ | ⟨m, hkm, hm, hug, hall, hlen, hwait⟩
  · rw [hug] at hq
    obtain rfl := Option.some.inj hq
    refine ⟨fun hc => ?_, fun _ => ⟨hstart, hmove k⟩, fun _ hf => ?_, fun hc => ?_, hsaved⟩
    · rw [show (p.advance k).stat = p.stat from rfl, hst] at hc
      cases hc
    · rw [hi.first, Bool.and_eq_true, beq_iff_eq] at hf
      obtain ⟨hf, rfl⟩ := hf
      rw [advance_zero]
      exact h.first hst hf
    · rw [show (p.advance k).stat = p.stat from rfl, hst] at hc
      cases hc
  · rw [hug] at hq
    obtain rfl := Option.some.inj hq
    refine ⟨nofun, fun _ => ⟨hstart, hmove m⟩, nofun, fun _ => ⟨hall, ?_⟩, hsaved⟩
    -- a packet that passes no block finishes a session whose first block is behind it
    rw [hi.first]
    cases hb : s.firstBlock with
    | false => rfl
    | true =>
      rcases Nat.eq_zero_or_pos k with rfl | hk
      · have hlt := hwait (by omega)
        rw [h.first hst hb] at hlt
        exact absurd hlt (UInt32.not_lt_zero)
      · simp [Nat.ne_of_gt hk]

/-! ## One call -/

/-- A start resets the session, or does nothing but allocate. -/
theorem tklOtaStartNotify_cases (s : Ota) (n : UInt32) :
    (tklOtaStartNotify s n).2.flash = s.flash ∧
    (tklOtaStartNotify s n).2.fristBlockDatabuf = s.fristBlockDatabuf ∧
    (((tklOtaStartNotify s n).1 = oprtOk ∧ (tklOtaStartNotify s n).2.ugProc = some .zero ∧
        (tklOtaStartNotify s n).2.firstBlock = true) ∨
      ((tklOtaStartNotify s n).1 ≠ oprtOk ∧ (tklOtaStartNotify s n).2.ugProc = s.ugProc ∧
        (tklOtaStartNotify s n).2.firstBlock = s.firstBlock)) := by
  unfold tklOtaStartNotify
  split
  · exact ⟨rfl, rfl, .inr ⟨(by decide : oprtOsAdapterInvalidParm ≠ oprtOk), rfl, rfl⟩⟩
  · split
    · exact ⟨rfl, rfl, .inl ⟨rfl, rfl, rfl⟩⟩
    · dsimp only
      split
      · exact ⟨flash_malloc s, frist_malloc s, .inl ⟨rfl, rfl, rfl⟩⟩
      · exact ⟨flash_malloc s, frist_malloc s,
          .inr ⟨(by decide : oprtMallocFailed ≠ oprtOk), ugProc_malloc s, firstBlock_malloc s⟩⟩

/-- A session stays valid when the flash and the heap change. -/
theorem Session.congr {s s' : Ota} {p : UgProc} (h : Session s p)
    (hfirst : s'.firstBlock = s.firstBlock)
    (hfrist : s'.fristBlockDatabuf = s.fristBlockDatabuf) : Session s' p := by
  obtain ⟨h1, h2, h3, h4, h5⟩ := h
  refine ⟨?_, h2, ?_, ?_, ?_⟩
  · rwa [hfirst]
  · rwa [hfirst]
  · rwa [hfirst]
  · rwa [hfirst, hfrist]

theorem Valid.congr {s s' : Ota} (h : Valid s) (hug : s'.ugProc = s.ugProc)
    (hfirst : s'.firstBlock = s.firstBlock)
    (hfrist : s'.fristBlockDatabuf = s.fristBlockDatabuf) : Valid s' :=
  fun p hp => (h p (hug ▸ hp)).congr hfirst hfrist

theorem valid_none {s : Ota} (h : s.ugProc = none) : Valid s := by
  intro p hp
  rw [h] at hp
  cases hp

/-- Behind an accepted header the first block is due and nothing is received. -/
theorem session_accepted {s : Ota} {hdr : UpdateFileHdr} (h : hdr.binLen.toNat < otaMaxBinSize)
    (hfirst : s.firstBlock = true) : Session s (accepted hdr h) where
  header hst := by cases hst
  image _ := ⟨rfl, rfl⟩
  first _ _ := rfl
  finish hst := by cases hst
  saved hf := by rw [hfirst] at hf; cases hf

/-- A packet without a session is refused, a packet of a finished session is swallowed, and
    the others go by the state of the session. -/
theorem tklOtaDataProcess_cases (s : Ota) (data : List UInt8) :
    (s.ugProc = none ∧ tklOtaDataProcess s data = (⟨oprtComError, none⟩, s)) ∨
    (∃ p, s.ugProc = some p ∧ (
      (p.stat = .recvHeader ∧ tklOtaDataProcess s data = recvHeader s p data) ∨
      (p.stat = .recvImgData ∧ tklOtaDataProcess s data = recvImgData s p data) ∨
      (p.stat = .finish ∧ tklOtaDataProcess s data = (⟨oprtOk, some 0⟩, s)))) := by
  unfold tklOtaDataProcess
  split
  · exact .inl ⟨‹_›, rfl⟩
  · rename_i p hp
    refine .inr ⟨p, hp, ?_⟩
    split
    · exact .inl ⟨‹_›, rfl⟩
    · exact .inr (.inl ⟨‹_›, rfl⟩)
    · exact .inr (.inr ⟨‹_›, rfl⟩)

theorem dataProcess_image {s : Ota} {p : UgProc} (hp : s.ugProc = some p)
    (hst : p.stat = .recvImgData) (data : List UInt8) :
    tklOtaDataProcess s data = recvImgData s p data := by
  unfold tklOtaDataProcess
  rw [hp]
  dsimp only
  rw [hst]

theorem dataProcess_header {s : Ota} {p : UgProc} (hp : s.ugProc = some p)
    (hst : p.stat = .recvHeader) (data : List UInt8) :
    tklOtaDataProcess s data = recvHeader s p data := by
  unfold tklOtaDataProcess
  rw [hp]
  dsimp only
  rw [hst]

theorem dataProcess_finish {s : Ota} {p : UgProc} (hp : s.ugProc = some p)
    (hst : p.stat = .finish) (data : List UInt8) :
    tklOtaDataProcess s data = (⟨oprtOk, some 0⟩, s) := by
  unfold tklOtaDataProcess
  rw [hp]
  dsimp only
  rw [hst]

/-- A valid header starts the image on erased sectors. -/
theorem dataProcess_accepted {s : Ota} {p : UgProc} {data : List UInt8} (hp : s.ugProc = some p)
    (hst : p.stat = .recvHeader) (hacc : Accepts data) : tklOtaDataProcess s data =
      (⟨oprtOk, some (data.length - hdrSize)⟩,
        ({ s with ugProc := some (accepted _ hacc.size) }).guardedErase ugStartAddr
          (fileHeaderOf data).binLen) := by
  rw [dataProcess_header hp hst]
  rcases recvHeader_cases s p data with ⟨hshort, _⟩ | ⟨hno, _⟩ | ⟨_, heq⟩
  · exact absurd hacc.len (Nat.not_le.mpr hshort)
  · exact absurd hacc hno
  · exact heq

theorem otaStep_accepted {s : Ota} {p : UgProc} {pack : OtaPack} (hp : s.ugProc = some p)
    (hst : p.stat = .recvHeader) (hacc : Accepts pack.data) :
    (otaStep s (.dataProcess pack)).1 =
      ({ s with ugProc := some (accepted _ hacc.size) }).guardedErase ugStartAddr
        (fileHeaderOf pack.data).binLen := by
  simp only [otaStep]
  rw [dataProcess_accepted hp hst hacc]

/-- What a call does to the session. -/
inductive Outcome (s : Ota) (c : OtaCall) (s' : Ota) : Prop where
  | same (hug : s'.ugProc = s.ugProc) (hfirst : s'.firstBlock = s.firstBlock)
      (hfrist : s'.fristBlockDatabuf = s.fristBlockDatabuf)
  | fresh (hug : s'.ugProc = some .zero) (hfirst : s'.firstBlock = true)
  | header (pack : OtaPack) (hc : c = .dataProcess pack) (p : UgProc) (hp : s.ugProc = some p)
      (hst : p.stat = .recvHeader) (hacc : Accepts pack.data)
      (hug : s'.ugProc = some (accepted _ hacc.size)) (hfirst : s'.firstBlock = true)
  | image (pack : OtaPack) (hc : c = .dataProcess pack) (p : UgProc) (hp : s.ugProc = some p)
      (hst : p.stat = .recvImgData) (k : Nat) (hk : ImgStep s p pack.data k s')
  | closed (hug : s'.ugProc = none)

/-- One call, whatever fails in it: its outcome, and the surroundings behind it. -/
structure CallStep (s : Ota) (c : OtaCall) (s' : Ota) : Prop where
  writes : s'.writes <:+ s.writes
  lowMem : s'.lowMem = s.lowMem
  outcome : Outcome s c s'

theorem CallStep.refl (s : Ota) (c : OtaCall) : CallStep s c s :=
  ⟨List.suffix_refl _, rfl, .same rfl rfl rfl⟩

theorem startNotify_step (s : Ota) (n : UInt32) :
    CallStep s (.startNotify n) (tklOtaStartNotify s n).2 := by
  unfold tklOtaStartNotify
  split
  · exact .refl _ _
  · split
    · exact ⟨List.suffix_refl _, rfl, .fresh rfl rfl⟩
    · dsimp only
      split
      · exact ⟨by simp, lowMem_malloc s, .fresh rfl rfl⟩
      · exact ⟨by simp, lowMem_malloc s,
          .same (ugProc_malloc s) (firstBlock_malloc s) (frist_malloc s)⟩

theorem dataProcess_step {s : Ota} (h : Valid s) (pack : OtaPack) :
    CallStep s (.dataProcess pack) (tklOtaDataProcess s pack.data).2 := by
  rcases tklOtaDataProcess_cases s pack.data with ⟨_, heq⟩ |
    ⟨p, hp, ⟨hst, heq⟩ | ⟨hst, heq⟩ | ⟨_, heq⟩⟩
  · rw [heq]
    exact .refl _ _
  · rw [heq]
    obtain ⟨hzero, hfirst⟩ := (h p hp).header hst
    rcases recvHeader_cases s p pack.data with ⟨_, heq⟩ | ⟨_, heq⟩ | ⟨hacc, heq⟩
    · rw [heq]
      exact .refl _ _
    · rw [heq, hzero, wipeHeader_zero]
      exact ⟨List.suffix_refl _, rfl, .fresh rfl hfirst⟩
    · rw [heq]
      exact ⟨by simp, lowMem_guardedErase _ _ _, .header pack rfl p hp hst hacc
        (ugProc_guardedErase _ _ _) ((firstBlock_guardedErase _ _ _).trans hfirst)⟩
  · rw [heq]
    obtain ⟨k, hk⟩ := recvImgData_step hp pack.data
    exact ⟨hk.writes, hk.lowMem, .image pack rfl p hp hst k hk⟩
  · rw [heq]
    exact .refl _ _

theorem endNotify_step {s : Ota} (h : Valid s) (reset : Bool) :
    CallStep s (.endNotify reset) (tklOtaEndNotify s reset).2 := by
  rcases tklOtaEndNotify_cases reset (fun p hp => (h p hp).fits) with ⟨_, heq⟩ |
    ⟨p, _, ⟨_, heq⟩ | ⟨_, _, _, hd⟩ | ⟨_, _, _, buf, ops, hc⟩⟩
  · rw [heq]
    exact .refl _ _
  · rw [heq]
    exact ⟨by simp, lowMem_malloc s,
      .same (ugProc_malloc s) (firstBlock_malloc s) (frist_malloc s)⟩
  · exact ⟨hd.writes ▸ List.suffix_refl _, hd.lowMem, .closed hd.ugProc⟩
  · exact ⟨hc.writes ▸ List.tail_suffix _, hc.lowMem, .closed hc.ugProc⟩

theorem otaStep_step {s : Ota} (h : Valid s) (c : OtaCall) : CallStep s c (otaStep s c).1 := by
  cases c with
  | startNotify n => exact startNotify_step s n
  | dataProcess pack => exact dataProcess_step h pack
  | endNotify reset => exact endNotify_step h reset

/-- No call breaks the invariant. -/
theorem otaStep_valid {s : Ota} (h : Valid s) (c : OtaCall) : Valid (otaStep s c).1 := by
  have hone : ∀ {s' : Ota} {q : UgProc}, s'.ugProc = some q → Session s' q → Valid s' := by
    intro s' q hq hs p hp
    obtain rfl := Option.some.inj (hq.symm.trans hp)
    exact hs
  cases (otaStep_step h c).outcome with
  | same hug hfirst hfrist => exact h.congr hug hfirst hfrist
  | fresh hug hfirst => exact hone hug (session_zero hfirst)
  | header pack _ p _ _ hacc hug hfirst => exact hone hug (session_accepted hacc.size hfirst)
  | image pack _ p hp hst k hk => exact hk.session (h p hp) hst
  | closed hug => exact valid_none hug

theorem final_valid {s : Ota} (h : Valid s) (cs : List OtaCall) : Valid (final otaStep s cs) :=
  final_of_inv (I := Valid) (fun _ c hv => otaStep_valid hv c) h cs

/-! ## The flash operations of a call -/

/-- The flash operations that a call may issue: the erase behind a valid header, the writes of
    a packet of the image, and the commit. -/
inductive CallOp (s : Ota) : OtaCall → Nor.Op → Prop where
  | header (pack : OtaPack) (o : Nor.Op) (p : UgProc) (hp : s.ugProc = some p)
      (hst : p.stat = .recvHeader) (hacc : Accepts pack.data)
      (ho : o ∈ eraseOps s.flash.cfg ugStartAddr (fileHeaderOf pack.data).binLen) :
      CallOp s (.dataProcess pack) o
  | image (pack : OtaPack) (o : Nor.Op) (p : UgProc) (hp : s.ugProc = some p)
      (hst : p.stat = .recvImgData) (ho : PacketOp p s.firstBlock pack.data.length o) :
      CallOp s (.dataProcess pack) o
  | commit (reset : Bool) (o : Nor.Op) (p : UgProc) (hp : s.ugProc = some p)
      (hm : s.malloc.1 = true) (hsum : SumMatches s p)
      (ho : o ∈ eraseOps s.flash.cfg p.startAddr (UInt32.ofNat bufSize) ∨
        WriteFoot p.startAddr.toNat bufSize o) :
      CallOp s (.endNotify reset) o

theorem Guarded.of_reads {P : Nor.Op → Prop} {d d' : FlashDev}
    (h : ∀ v, Executes d [] v d.protectValue d') : Guarded P d d' where
  cfg := (h 0).cfg
  ops := ⟨[], by simp, (h 0).mem, (h _).log⟩
  protect hall := (h 0).protect.trans hall

theorem tklOtaDataProcess_guarded (s : Ota) (pack : OtaPack) :
    Guarded (CallOp s (.dataProcess pack)) s.flash (tklOtaDataProcess s pack.data).2.flash := by
  rcases tklOtaDataProcess_cases s pack.data with ⟨_, heq⟩ |
    ⟨p, hp, ⟨hst, heq⟩ | ⟨hst, heq⟩ | ⟨_, heq⟩⟩
  · rw [heq]
    exact .refl _ _
  · rw [heq]
    rcases recvHeader_cases s p pack.data with ⟨_, heq⟩ | ⟨_, heq⟩ | ⟨hacc, heq⟩
    · rw [heq]
      exact .refl _ _
    · rw [heq]
      exact .refl _ _
    · rw [heq]
      exact (guardedErase_guarded _ _ _).mono fun o ho => .header pack o p hp hst hacc ho
  · rw [heq]
    obtain ⟨k, hk⟩ := recvImgData_step hp pack.data
    exact hk.guarded.mono fun o ho => .image pack o p hp hst ho
  · rw [heq]
    exact .refl _ _

theorem otaStep_guarded {s : Ota} (h : Valid s) (c : OtaCall) :
    Guarded (CallOp s c) s.flash (otaStep s c).1.flash := by
  cases c with
  | startNotify n =>
    simp only [otaStep, (tklOtaStartNotify_cases s n).1]
    exact .refl _ _
  | dataProcess pack => exact tklOtaDataProcess_guarded s pack
  | endNotify reset =>
    simp only [otaStep]
    rcases tklOtaEndNotify_cases reset (fun p hp => (h p hp).fits) with ⟨_, heq⟩ |
      ⟨p, hp, ⟨_, heq⟩ | ⟨_, _, _, hd⟩ | ⟨hm, hsum, _, buf, ops, hc⟩⟩
    · rw [heq]
      exact .refl _ _
    · rw [heq, flash_malloc]
      exact .refl _ _
    · exact .of_reads hd.executes
    · refine .of_executes hc.executes fun o ho => .commit reset o p hp hm hsum ?_
      exact (List.mem_append.mp ho).imp id (hc.foot o)

/-- The operations that a call issues, read off the log. -/
def issued (s : Ota) (c : OtaCall) : List Nor.Op :=
  ((otaStep s c).1.flash.log.drop s.flash.log.length).map Prod.fst

theorem issued_of_log {s : Ota} {c : OtaCall} {ops : List Nor.Op} {v : BitVec 16}
    (h : (otaStep s c).1.flash.log = s.flash.log ++ ops.map fun o => (o, v)) :
    issued s c = ops := by
  rw [issued, h, List.drop_left, List.map_map]
  exact List.map_id' ops

theorem issued_of_guarded {P : Nor.Op → Prop} {s : Ota} {c : OtaCall}
    (h : Guarded P s.flash (otaStep s c).1.flash) : ∀ o ∈ issued s c, P o := by
  obtain ⟨ops, hP, _, hlog⟩ := h.ops
  rw [issued_of_log hlog]
  exact hP

/-! ## A session behind its header -/

/-- A session on an erased flash, started and with the sample header received. -/
def sampleCalls : List OtaCall :=
  [.startNotify 1, .dataProcess ⟨sampleHeader, length_sampleHeader⟩]

/-- The image of the sample header. -/
def samplePack : OtaPack where
  data := List.replicate rtImgWrUnit 0x01
  len_lt := by rw [List.length_replicate]; decide

theorem length_samplePack : samplePack.data.length = rtImgWrUnit := List.length_replicate

def sampleState : Ota :=
  final otaStep (Ota.boot blankFlash [] [] fun _ => erasedBlock) sampleCalls

/-- The session that the sample header opens, before the slot is erased. -/
def sampleAccepted : Ota :=
  { (otaStep (Ota.boot blankFlash [] [] fun _ => erasedBlock) (.startNotify 1)).1 with
    ugProc := some (accepted (fileHeaderOf sampleHeader) accepts_sampleHeader.size) }

theorem sampleState_eq : sampleState = sampleAccepted.guardedErase ugStartAddr 512 :=
  congrArg Prod.snd (dataProcess_accepted (s := (otaStep (Ota.boot blankFlash [] [] fun _ =>
    erasedBlock) (.startNotify 1)).1) rfl rfl accepts_sampleHeader)

theorem sampleState_ugProc : sampleState.ugProc =
    some (accepted (fileHeaderOf sampleHeader) accepts_sampleHeader.size) := by
  rw [sampleState_eq, ugProc_guardedErase]
  rfl

theorem sampleState_mallocs : sampleState.mallocs = [] := by
  rw [sampleState_eq, mallocs_guardedErase]
  rfl

theorem sampleState_writes : sampleState.writes = [] := by
  rw [sampleState_eq, writes_guardedErase]
  rfl

theorem sampleState_firstBlock : sampleState.firstBlock = true := by
  rw [sampleState_eq, firstBlock_guardedErase]
  rfl

theorem sampleState_cfg : sampleState.flash.cfg = blankFlash.cfg := by
  rw [sampleState_eq]
  exact (guardedErase_spec sampleAccepted ugStartAddr 512).cfg

/-- An erase leaves the erased flash as it is. -/
theorem sampleState_mem : sampleState.flash.mem = blankFlash.mem := by
  have herased (c : FlashConfig) (a : Nat) :
      Nor.execAll (eraseOps c ugStartAddr 512) blankFlash.mem a = 0xFF := by
    rw [← List.take_length (l := eraseOps c ugStartAddr 512)]
    refine Nor.execAll_take_keepsErased (R := fun _ => True) (fun o ho => ?_)
      (fun _ _ => rfl) _ a trivial
    obtain ⟨i, _, _, rfl⟩ := mem_eraseOps (by decide) ho
    exact Nor.keepsErased_erase _ _ _
  rw [sampleState_eq, (guardedErase_spec sampleAccepted ugStartAddr 512).mem]
  funext a
  exact herased _ a

end ArduinoT2.Ota
