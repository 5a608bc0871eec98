import ArduinoT2.Ota.Upload

/-
  A whole update when nothing fails, and what a power cut in its commit leaves behind.

  `upload_installs`: an image with a valid header, cut into packets anywhere, is in the slot
  behind the end of the session, its first block included. `commit_safe_iff`: the commit shows
  the first block before the rest of the first sector, so every cut of it is harmless only for
  images that are erased bytes in one of the two.
-/

namespace ArduinoT2.Ota

open ArduinoT2.Vendor ArduinoT2.Adapter StepSys

/-! ## Valid headers -/

/-- The big-endian number at byte `i`. -/
def beNat (bs : List UInt8) (i : Nat) : Nat :=
  (bs.getD i 0).toNat * 2 ^ 24 + (bs.getD (i + 1) 0).toNat * 2 ^ 16 +
    (bs.getD (i + 2) 0).toNat * 2 ^ 8 + (bs.getD (i + 3) 0).toNat

/-- The sum of the bytes. -/
def byteSum (bs : List UInt8) : Nat := (bs.map UInt8.toNat).sum

theorem toNat_shiftLeft_byte (b : UInt8) {n : UInt32} {k : Nat} (hn : n.toNat % 32 = k)
    (hk : k ≤ 24) : (b.toUInt32 <<< n).toNat = b.toNat <<< k := by
  have hb := b.toNat_lt
  have hpow : 2 ^ k ≤ 2 ^ 24 := Nat.pow_le_pow_right (by decide) hk
  have hmul : b.toNat * 2 ^ k ≤ 255 * 2 ^ 24 := Nat.mul_le_mul (by omega) hpow
  rw [UInt32.toNat_shiftLeft, UInt8.toNat_toUInt32, hn, Nat.shiftLeft_eq]
  exact Nat.mod_eq_of_lt (by omega)

theorem toNat_be32 (bs : List UInt8) (i : Nat) : (be32 bs i).toNat = beNat bs i := by
  have h0 := (bs.getD i 0).toNat_lt
  have h1 := (bs.getD (i + 1) 0).toNat_lt
  have h2 := (bs.getD (i + 2) 0).toNat_lt
  have h3 := (bs.getD (i + 3) 0).toNat_lt
  unfold be32 beNat
  generalize bs.getD i 0 = b0 at *
  generalize bs.getD (i + 1) 0 = b1 at *
  generalize bs.getD (i + 2) 0 = b2 at *
  generalize bs.getD (i + 3) 0 = b3 at *
  have e0 : (b0.toUInt32 <<< 24).toNat = b0.toNat <<< 24 :=
    toNat_shiftLeft_byte b0 rfl (by decide)
  have e1 : (b1.toUInt32 <<< 16).toNat = b1.toNat <<< 16 :=
    toNat_shiftLeft_byte b1 rfl (by decide)
  have e2 : (b2.toUInt32 <<< 8).toNat = b2.toNat <<< 8 :=
    toNat_shiftLeft_byte b2 rfl (by decide)
  rw [UInt32.toNat_or, UInt32.toNat_or, UInt32.toNat_or, e0, e1, e2, UInt8.toNat_toUInt32,
    Nat.or_assoc, Nat.or_assoc, ← Nat.shiftLeft_add_eq_or_of_lt (show b3.toNat < 2 ^ 8 by omega),
    Nat.shiftLeft_eq b2.toNat, ← Nat.shiftLeft_add_eq_or_of_lt (by omega : _ < 2 ^ 16),
    Nat.shiftLeft_eq b1.toNat, ← Nat.shiftLeft_add_eq_or_of_lt (by omega : _ < 2 ^ 24),
    Nat.shiftLeft_eq b0.toNat]
  omega

/-- The header of 32 bytes that belongs to the image `B`: the magic words, the sum of the first
    24 bytes, and length and byte sum of the image. -/
structure ValidHeader (hdr B : List UInt8) : Prop where
  len : hdr.length = 32
  head : beNat hdr 0 = 0x55aa55aa
  tail : beNat hdr 28 = 0xaa55aa55
  headSum : beNat hdr 24 = byteSum (hdr.take 24)
  binLen : beNat hdr 16 = B.length
  binSum : beNat hdr 20 = byteSum B % 2 ^ 32

theorem byteSum_le (bs : List UInt8) : byteSum bs ≤ 255 * bs.length := by
  induction bs with
  | nil => exact Nat.zero_le _
  | cons b bs ih =>
    have hb := b.toNat_lt
    simp only [byteSum, List.map_cons, List.sum_cons, List.length_cons] at *
    omega

theorem addBytes_eq (bs : List UInt8) : (addBytes 0 bs).toNat = byteSum bs % 2 ^ 32 := by
  rw [toNat_addBytes, UInt32.toNat_zero, Nat.zero_add]
  rfl

/-- A valid header of an image that fits the slot is accepted. -/
theorem ValidHeader.headerOf {hdr B : List UInt8} (h : ValidHeader hdr B)
    (hlong : rtImgWrUnit ≤ B.length) (hmax : B.length < otaMaxBinSize) : HeaderOf hdr B := by
  have hbin : (fileHeaderOf hdr).binLen.toNat = B.length := (toNat_be32 hdr 16).trans h.binLen
  have hsum : byteSum (hdr.take 24) < 2 ^ 32 := by
    have hle := byteSum_le (hdr.take 24)
    have hlen : (hdr.take 24).length ≤ 24 := List.length_take_le _ _
    omega
  refine ⟨h.len, ⟨Nat.le_of_eq h.len.symm, ?_, ?_, ?_, by rw [hbin]; exact hmax⟩, hbin, hlong⟩
  · exact UInt32.toNat_inj.mp ((toNat_be32 hdr 0).trans h.head)
  · exact UInt32.toNat_inj.mp ((toNat_be32 hdr 28).trans h.tail)
  · refine UInt32.toNat_inj.mp ((toNat_be32 hdr 24).trans (h.headSum.trans ?_))
    rw [addBytes_eq]
    exact (Nat.mod_eq_of_lt hsum).symm

theorem ValidHeader.binSum_eq {hdr B : List UInt8} (h : ValidHeader hdr B) :
    (fileHeaderOf hdr).binSum = addBytes 0 B :=
  UInt32.toNat_inj.mp (((toNat_be32 hdr 20).trans h.binSum).trans (addBytes_eq B).symm)

/-! ## The commit -/

/-- Behind its first block the slot of a complete session holds the image. -/
theorem Complete.mem {s : Ota} {p : UgProc} {B : List UInt8} (h : Complete s p B)
    (hslot : SlotFits s.flash) {i : Nat} (hi : i < B.length) :
    s.flash.mem (ugStartAddr.toNat + i) = if rtImgWrUnit ≤ i then B.getD i 0xFF else 0xFF := by
  rw [h.holds.mem hslot i hi]
  simp only [hi, and_true]

/-- A complete session stores the image. -/
theorem Complete.storedImage {s : Ota} {p : UgProc} {B : List UInt8} (h : Complete s p B)
    (hslot : SlotFits s.flash) : storedImage s p = B := by
  obtain ⟨blk, hsome, hblk⟩ := h.holds.saved (Nat.lt_of_lt_of_le (by decide) h.long)
  have hstart := (h.session.image (by simp [h.stat])).1
  have hread : Nor.read s.flash.mem (ugStartAddr.toNat + rtImgWrUnit) (B.drop rtImgWrUnit).length =
      B.drop rtImgWrUnit := by
    refine Nor.read_eq 0xFF fun i hi => ?_
    rw [List.length_drop] at hi
    rw [Nat.add_assoc, h.mem hslot (by omega), if_pos (Nat.le_add_right _ _), Nor.getD_drop]
  rw [List.length_drop] at hread
  unfold Ota.storedImage
  rw [fristBytes_eq hsome, hblk, hstart, h.binLen, Nor.drop_read _ _ h.long, hread,
    List.take_append_drop, List.take_length]

/-- The commit of a complete session whose sum is right: the first sector of the slot is erased
    and written page by page with what the image has there. -/
theorem Complete.commit {s : Ota} {p : UgProc} {B : List UInt8} (h : Complete s p B)
    (hslot : SlotFits s.flash) (hsum : p.fileHeader.binSum = addBytes 0 B) (reset : Bool) :
    (tklOtaEndNotify s reset).1 = oprtOk ∧ ∃ buf : List UInt8, buf.length = bufSize ∧
      (∀ i, i < B.length → i < bufSize → buf.getD i 0xFF = B.getD i 0xFF) ∧
      Executes s.flash (.erase ugStartAddr.toNat bufSize :: Nor.pages 32 ugStartAddr.toNat buf 128)
        s.flash.cfg.protectHalf s.flash.cfg.protectAll (tklOtaEndNotify s reset).2.flash := by
  have hfit : ∀ q, s.ugProc = some q → q.startAddr.toNat + q.fileHeader.binLen.toNat < 2 ^ 32 :=
    fun q hq => Option.some.inj (h.ugProc.symm.trans hq) ▸ h.session.fits
  have hstart := (h.session.image (by simp [h.stat])).1
  rcases tklOtaEndNotify_cases reset hfit with ⟨hnone, _⟩ | ⟨q, hq, ⟨hno, _⟩ | ⟨_, hbad, _⟩ |
    ⟨_, _, hrc, buf, ops, hc⟩⟩
  · rw [h.ugProc] at hnone
    cases hnone
  · rw [malloc_nil h.mallocs] at hno
    cases hno
  · obtain rfl := Option.some.inj (h.ugProc.symm.trans hq)
    refine absurd ?_ hbad
    unfold SumMatches
    rw [h.storedImage hslot, hsum]
  · obtain rfl := Option.some.inj (h.ugProc.symm.trans hq)
    have hslot' := hslot
    unfold SlotFits at hslot'
    rw [ugStartAddr_toNat] at hslot'
    have herase : eraseOps s.flash.cfg ugStartAddr (UInt32.ofNat bufSize) =
        [.erase ugStartAddr.toNat bufSize] :=
      eraseOps_eq_sectors (by decide) (Nat.le_trans (by decide) hslot')
    have hlen := hc.len
    have hex := hc.executes
    have hok := hc.ok (by unfold fate; rw [h.writes]; rfl)
      { s.flash with mem := Nor.execAll [.erase ugStartAddr.toNat bufSize] s.flash.mem } rfl
      (by rw [hstart, herase])
    rw [hstart, herase] at hex
    have hops := hok.pages 128 (by rw [hstart]; decide) (by rw [hlen])
    rw [hstart, if_pos] at hops
    · rw [hops] at hex
      refine ⟨hrc, buf, hlen, fun i hi hi' => ?_, hex⟩
      obtain ⟨blk, hsome, hblk⟩ := h.holds.saved (Nat.lt_of_lt_of_le (by decide) h.long)
      rw [hc.saved blk hsome, hstart]
      rcases Nat.lt_or_ge i rtImgWrUnit with hlt | hge
      · rw [List.getD_append _ _ _ _ (by rw [blk.len]; exact hlt), hblk, Nor.getD_take, if_pos hlt]
      · rw [List.getD_append_right _ _ _ _ (by rw [blk.len]; exact hge), blk.len,
          Nor.getD_read (by omega), Nat.add_assoc, Nat.add_sub_cancel' hge, h.mem hslot hi,
          if_pos hge]
    · change ugStartAddr.toNat < s.flash.cfg.flashSize ∧ _ ≤ s.flash.cfg.flashSize ∧
        _ ≤ s.flash.cfg.flashSize
      rw [hlen, ugStartAddr_toNat]
      simp only [otaMaxBinSize, bufSize] at *
      exact ⟨by omega, by omega, by omega⟩

/-! ## A whole update -/

/-- Packets do not change the chip. -/
theorem dataProcess_cfg (s : Ota) (data : List UInt8) :
    (tklOtaDataProcess s data).2.flash.cfg = s.flash.cfg := by
  rcases tklOtaDataProcess_cases s data with ⟨_, heq⟩ |
    ⟨p, hp, ⟨_, heq⟩ | ⟨_, heq⟩ | ⟨_, heq⟩⟩
  · rw [heq]
  · rw [heq]
    rcases recvHeader_cases s p data with ⟨_, heq⟩ | ⟨_, heq⟩ | ⟨_, heq⟩
    · rw [heq]
    · rw [heq]
    · rw [heq]
      exact (guardedErase_spec _ _ _).cfg
  · rw [heq]
    obtain ⟨k, hk⟩ := recvImgData_step hp data
    exact hk.guarded.cfg
  · rw [heq]

theorem final_present_slotFits {c : Ota × List UInt8} (h : SlotFits c.1.flash)
    (chunks : List (List UInt8)) : SlotFits (final presentStep c chunks).1.flash :=
  final_of_inv (I := fun c : Ota × List UInt8 => SlotFits c.1.flash)
    (fun c chunk hc => by
      have hcfg := dataProcess_cfg c.1 (c.2 ++ chunk)
      unfold presentStep SlotFits at *
      rwa [hcfg])
    h chunks

/-- The caller may stop: no byte is left over, or the session is finished. -/
def MayStop (c : Ota × List UInt8) : Prop :=
  c.2 = [] ∨ ∃ p, c.1.ugProc = some p ∧ p.stat = .finish

/-- A caller that has presented all bytes and may stop has completed the image. -/
theorem Uploading.complete_of_mayStop {hdr B : List UInt8} (hf : HeaderOf hdr B)
    {c : Ota × List UInt8} (h : Uploading hdr B c []) (hstop : MayStop c) :
    ∃ p, Complete c.1 p B ∧ p.fileHeader = fileHeaderOf hdr := by
  cases h with
  | header s left _ p hm hw hs hp hst hleft heq =>
    have hlen := congrArg List.length heq
    have := hf.len
    simp only [List.length_append, List.length_nil] at hlen
    omega
  | image s left _ p n ht hh heq =>
    rcases hstop with hleft | ⟨q, hq, hfin⟩
    · have hlen := congrArg List.length heq
      have hlt := ht.lt
      simp only at hleft
      simp only [List.length_drop, hleft, List.append_nil, List.length_nil] at hlen
      omega
    · obtain rfl := Option.some.inj (ht.ugProc.symm.trans hq)
      rw [ht.stat] at hfin
      cases hfin
  | complete s p hc hh => exact ⟨p, hc, hh⟩

/-- What a caller has reached who has presented a valid header and its image and may stop. -/
theorem complete_of_upload {s : Ota} (hm : s.mallocs = []) (hw : s.writes = [])
    (hslot : SlotFits s.flash) {n : UInt32} (hn : n ≠ 0) {hdr B : List UInt8}
    (hhdr : ValidHeader hdr B) (hlong : rtImgWrUnit ≤ B.length) (hmax : B.length < otaMaxBinSize)
    {chunks : List (List UInt8)} (hchunks : chunks.flatten = hdr ++ B) :
    let upload := final presentStep ((tklOtaStartNotify s n).2, [])
    MayStop (upload (chunks ++ [[]])) ∧ (MayStop (upload chunks) →
      ∃ p, Complete (upload chunks).1 p B ∧ p.fileHeader.binSum = addBytes 0 B ∧
        SlotFits (upload chunks).1.flash) := by
  intro upload
  have hf := hhdr.headerOf hlong hmax
  have hstart := uploading_start hm hw hn hdr B
  rw [← hchunks, ← List.append_nil chunks.flatten] at hstart
  have hup : Uploading hdr B (upload chunks) [] := (final_uploading hf hstart).1
  constructor
  · obtain ⟨s', p, hlast, _⟩ := present_last hf hup
    left
    change (final presentStep _ (chunks ++ [[]])).2 = []
    rw [final_append, final_cons, final_nil]
    exact congrArg Prod.snd hlast
  · intro hstop
    obtain ⟨p, hc, hh⟩ := hup.complete_of_mayStop hf hstop
    refine ⟨p, hc, hh ▸ hhdr.binSum_eq, final_present_slotFits ?_ chunks⟩
    rwa [show (tklOtaStartNotify s n).2.flash = s.flash from (start_ok hm hn).2.2.2.2]

/-- The commit of a complete session whose sum is right installs the image. -/
theorem Complete.installs {s : Ota} {p : UgProc} {B : List UInt8} (h : Complete s p B)
    (hslot : SlotFits s.flash) (hsum : p.fileHeader.binSum = addBytes 0 B) (reset : Bool) :
    (tklOtaEndNotify s reset).1 = oprtOk ∧ ∀ i, i < B.length →
      (tklOtaEndNotify s reset).2.flash.mem (ugStartAddr.toNat + i) = B.getD i 0xFF := by
  obtain ⟨hrc, buf, hlen, hbuf, hex⟩ := h.commit hslot hsum reset
  refine ⟨hrc, fun i hi => ?_⟩
  have hlong := h.long
  rw [hex.mem, Nor.execAll_cons, Nor.execAll_pages, List.take_of_length_le (Nat.le_of_eq hlen),
    Nor.program_exec_add]
  rcases Nat.lt_or_ge i bufSize with hin | hout
  · rw [Nor.erase_exec_of_mem (Nat.le_add_right _ _) (Nat.add_lt_add_left hin _), Nor.ff_and,
      hbuf i hi hin]
  · rw [Nor.exec_of_not_touches (fun ht => by
      simp only [Nor.Op.Touches, Nor.Op.addr, Nor.Op.len] at ht
      omega), List.getD_eq_default buf _ (by omega), Nor.and_ff, h.mem hslot hi,
      if_pos (Nat.le_trans (by decide) hout)]

/-- A valid header and its image, cut into chunks anywhere and presented until the caller may
    stop, leave a finished session, and its commit puts the whole image into the slot. One call
    without new bytes behind the last chunk is always enough to stop. -/
theorem upload_installs {s : Ota} (hm : s.mallocs = []) (hw : s.writes = [])
    (hslot : SlotFits s.flash) {n : UInt32} (hn : n ≠ 0) {hdr B : List UInt8}
    (hhdr : ValidHeader hdr B) (hlong : rtImgWrUnit ≤ B.length) (hmax : B.length < otaMaxBinSize)
    {chunks : List (List UInt8)} (hchunks : chunks.flatten = hdr ++ B) :
    let upload := final presentStep ((tklOtaStartNotify s n).2, [])
    MayStop (upload (chunks ++ [[]])) ∧ (MayStop (upload chunks) →
      ∃ p, (upload chunks).1.ugProc = some p ∧ p.stat = .finish ∧
        p.recvDataCnt.toNat = B.length ∧ ∀ reset,
          (tklOtaEndNotify (upload chunks).1 reset).1 = oprtOk ∧ ∀ i, i < B.length →
            (tklOtaEndNotify (upload chunks).1 reset).2.flash.mem (ugStartAddr.toNat + i) =
              B.getD i 0xFF) := by
  intro upload
  obtain ⟨hlast, hcomplete⟩ := complete_of_upload hm hw hslot hn hhdr hlong hmax hchunks
  refine ⟨hlast, fun hstop => ?_⟩
  obtain ⟨p, hc, hsum, hfits⟩ := hcomplete hstop
  exact ⟨p, hc.ugProc, hc.stat, hc.recv, hc.installs hfits hsum⟩

/-- The sample header is valid for the sample image. -/
theorem validHeader_sample : ValidHeader sampleHeader samplePack.data where
  len := rfl
  head := by decide
  tail := by decide
  headSum := by decide
  binLen := by rw [length_samplePack]; decide
  binSum := by
    rw [byteSum, samplePack, List.map_replicate, List.sum_replicate_nat]
    decide

theorem slotFits_blank : SlotFits blankFlash := by
  unfold SlotFits
  decide

/-- The sample image in three chunks: two of its own and a last call with what is left. -/
theorem upload_installs_sample :
    let upload := final presentStep
      ((tklOtaStartNotify (Ota.boot blankFlash [] [] fun _ => erasedBlock) 1).2, [])
    let chunks := [sampleHeader, samplePack.data, []]
    MayStop (upload (chunks ++ [[]])) ∧ (MayStop (upload chunks) →
      ∃ p, (upload chunks).1.ugProc = some p ∧ p.stat = .finish ∧
        p.recvDataCnt.toNat = samplePack.data.length ∧ ∀ reset,
          (tklOtaEndNotify (upload chunks).1 reset).1 = oprtOk ∧ ∀ i, i < samplePack.data.length →
            (tklOtaEndNotify (upload chunks).1 reset).2.flash.mem (ugStartAddr.toNat + i) =
              samplePack.data.getD i 0xFF) :=
  upload_installs rfl rfl slotFits_blank (by decide) validHeader_sample
    (Nat.le_of_eq length_samplePack.symm) (by rw [length_samplePack]; decide)
    (by simp only [List.flatten_cons, List.flatten_nil, List.append_nil])

/-! ## Power cuts in the commit -/

/-- A memory in which the image does not start, or is there behind its first block. -/
def Safe (B : List UInt8) (m : Nor.Mem) : Prop :=
  (∃ i, i < rtImgWrUnit ∧ m (ugStartAddr.toNat + i) ≠ 0xFF) →
    ∀ i, rtImgWrUnit ≤ i → i < B.length → m (ugStartAddr.toNat + i) = B.getD i 0xFF

/-- The image behind the first `k + 1` operations of the commit: the first sector is erased and
    `k` of its pages are written. -/
theorem Complete.commit_bytes {s : Ota} {p : UgProc} {B : List UInt8} (h : Complete s p B)
    (hslot : SlotFits s.flash) (hsum : p.fileHeader.binSum = addBytes 0 B) (reset : Bool) (k : Nat)
    {i : Nat} (hi : i < B.length) :
    Nor.execAll ((issued s (.endNotify reset)).take (k + 1)) s.flash.mem (ugStartAddr.toNat + i) =
      if i < bufSize ∧ 32 * min k 128 ≤ i then 0xFF else B.getD i 0xFF := by
  obtain ⟨_, buf, hlen, hbuf, hex⟩ := h.commit hslot hsum reset
  have hbs : bufSize = 4096 := rfl
  rw [issued_of_log (c := .endNotify reset) hex.log, List.take_succ_cons, Nor.pages_take,
    Nor.execAll_cons, Nor.execAll_pages, Nor.program_exec_add, Nor.getD_take]
  rcases Nat.lt_or_ge i bufSize with hin | hout
  · rw [Nor.erase_exec_of_mem (Nat.le_add_right _ _) (Nat.add_lt_add_left hin _), Nor.ff_and,
      hbuf i hi hin]
    split
    · rw [if_neg (by omega)]
    · rw [if_pos (by omega)]
  · rw [Nor.exec_of_not_touches (fun ht => by
      simp only [Nor.Op.Touches, Nor.Op.addr, Nor.Op.len] at ht
      omega), if_neg (by omega), if_neg (by omega), Nor.and_ff, h.mem hslot hi,
      if_pos (Nat.le_trans (by decide) hout)]

/-- Every power cut in the commit of a complete session is harmless exactly for the images whose
    first block, or whose other bytes in the first sector, are erased bytes. -/
theorem Complete.safe_iff {s : Ota} {p : UgProc} {B : List UInt8} (h : Complete s p B)
    (hslot : SlotFits s.flash) (hsum : p.fileHeader.binSum = addBytes 0 B) (reset : Bool) :
    (∀ k, Safe B (Nor.execAll ((issued s (.endNotify reset)).take k) s.flash.mem)) ↔
      (∀ i, i < rtImgWrUnit → B.getD i 0xFF = 0xFF) ∨
      (∀ i, rtImgWrUnit ≤ i → i < bufSize → i < B.length → B.getD i 0xFF = 0xFF) := by
  have hlong := h.long
  have hbs : bufSize = 4096 := rfl
  have hunit : rtImgWrUnit = 512 := rfl
  constructor
  · intro hall
    by_contra hno
    push Not at hno
    obtain ⟨⟨a, ha, hBa⟩, b, hb, hb', hlt, hBb⟩ := hno
    -- the first block is written, and the page behind it is not
    refine hBb ?_
    have hsafe := hall (16 + 1) ⟨a, ha, ?_⟩ b hb hlt
    · rw [h.commit_bytes hslot hsum reset 16 hlt, if_pos ⟨hb', by omega⟩] at hsafe
      exact hsafe.symm
    · rw [h.commit_bytes hslot hsum reset 16 (by omega), if_neg (by omega)]
      exact hBa
  · rintro hff k ⟨a, ha, hma⟩ i hi hlt
    cases k with
    | zero => exact absurd ((h.mem hslot (by omega)).trans (if_neg (by omega))) hma
    | succ k =>
      rw [h.commit_bytes hslot hsum reset k (by omega)] at hma
      rw [h.commit_bytes hslot hsum reset k hlt]
      rcases hff with hhead | hbody
      · rw [hhead a ha, ite_self] at hma
        exact absurd rfl hma
      · split
        · rename_i hin
          exact (hbody i hi hin.1 hlt).symm
        · rfl

/-- Behind every upload the commit survives every power cut exactly for the images whose first
    block, or whose other bytes in the first sector, are erased bytes. -/
theorem commit_safe_iff {s : Ota} (hm : s.mallocs = []) (hw : s.writes = [])
    (hslot : SlotFits s.flash) {n : UInt32} (hn : n ≠ 0) {hdr B : List UInt8}
    (hhdr : ValidHeader hdr B) (hlong : rtImgWrUnit ≤ B.length) (hmax : B.length < otaMaxBinSize)
    {chunks : List (List UInt8)} (hchunks : chunks.flatten = hdr ++ B) (reset : Bool) :
    let c := final presentStep ((tklOtaStartNotify s n).2, []) chunks
    MayStop c →
      ((∀ k, Safe B (Nor.execAll ((issued c.1 (.endNotify reset)).take k) c.1.flash.mem)) ↔
        (∀ i, i < rtImgWrUnit → B.getD i 0xFF = 0xFF) ∨
        (∀ i, rtImgWrUnit ≤ i → i < bufSize → i < B.length → B.getD i 0xFF = 0xFF)) := by
  intro c hstop
  obtain ⟨p, hc, hsum, hfits⟩ :=
    (complete_of_upload hm hw hslot hn hhdr hlong hmax hchunks).2 hstop
  exact hc.safe_iff hfits hsum reset

theorem mayStop_sample : MayStop (final presentStep
    ((tklOtaStartNotify (Ota.boot blankFlash [] [] fun _ => erasedBlock) 1).2, [])
    ([sampleHeader, samplePack.data] ++ [[]])) := by
  refine (complete_of_upload rfl rfl slotFits_blank (by decide) validHeader_sample
    (Nat.le_of_eq length_samplePack.symm) ?_ ?_).1
  · rw [length_samplePack]
    decide
  · simp only [List.flatten_cons, List.flatten_nil, List.append_nil]

theorem commit_safe_sample :
    let c := final presentStep
      ((tklOtaStartNotify (Ota.boot blankFlash [] [] fun _ => erasedBlock) 1).2, [])
      [sampleHeader, samplePack.data, []]
    (∀ k, Safe samplePack.data
        (Nor.execAll ((issued c.1 (.endNotify true)).take k) c.1.flash.mem)) ↔
      (∀ i, i < rtImgWrUnit → samplePack.data.getD i 0xFF = 0xFF) ∨
      (∀ i, rtImgWrUnit ≤ i → i < bufSize → i < samplePack.data.length →
        samplePack.data.getD i 0xFF = 0xFF) :=
  commit_safe_iff rfl rfl slotFits_blank (by decide) validHeader_sample
    (Nat.le_of_eq length_samplePack.symm) (by rw [length_samplePack]; decide)
    (by simp only [List.flatten_cons, List.flatten_nil, List.append_nil]) true mayStop_sample

/-- An image of two blocks of `0x01`. -/
def twoBlocks : List UInt8 := List.replicate 1024 0x01

/-- Its header. -/
def twoBlocksHeader : List UInt8 :=
  [0x55, 0xaa, 0x55, 0xaa] ++ List.replicate 12 0 ++
    [0x00, 0x00, 0x04, 0x00, 0x00, 0x00, 0x04, 0x00, 0x00, 0x00, 0x02, 0x06,
      0xaa, 0x55, 0xaa, 0x55]

theorem length_twoBlocks : twoBlocks.length = 1024 := List.length_replicate

theorem getD_twoBlocks {i : Nat} (h : i < 1024) : twoBlocks.getD i 0xFF = 0x01 := by
  rw [twoBlocks, List.getD_eq_getElem _ _ (by rwa [List.length_replicate]),
    List.getElem_replicate]

theorem validHeader_twoBlocks : ValidHeader twoBlocksHeader twoBlocks where
  len := rfl
  head := by decide
  tail := by decide
  headSum := by decide
  binLen := by rw [length_twoBlocks]; decide
  binSum := by
    rw [byteSum, twoBlocks, List.map_replicate, List.sum_replicate_nat]
    decide

/-- A power cut in its commit can leave the first block in front of erased bytes. -/
theorem commit_torn :
    let c := final presentStep
      ((tklOtaStartNotify (Ota.boot blankFlash [] [] fun _ => erasedBlock) 1).2, [])
      [twoBlocksHeader ++ twoBlocks, []]
    MayStop c ∧ ¬ ∀ k, Safe twoBlocks
      (Nor.execAll ((issued c.1 (.endNotify true)).take k) c.1.flash.mem) := by
  have hupload := fun chunks => @complete_of_upload (Ota.boot blankFlash [] [] fun _ => erasedBlock)
    rfl rfl slotFits_blank 1 (by decide) _ _ validHeader_twoBlocks
    (by rw [length_twoBlocks]; decide) (by rw [length_twoBlocks]; decide) chunks
  dsimp only at hupload ⊢
  have hstop := (hupload [twoBlocksHeader ++ twoBlocks] (by
    simp only [List.flatten_cons, List.flatten_nil, List.append_nil])).1
  have hcomplete := (hupload [twoBlocksHeader ++ twoBlocks, []] (by
    simp only [List.flatten_cons, List.flatten_nil, List.append_nil])).2 hstop
  rw [List.singleton_append] at hstop
  generalize final presentStep _ [twoBlocksHeader ++ twoBlocks, []] = c at hstop hcomplete ⊢
  obtain ⟨p, hc, hsum, hfits⟩ := hcomplete
  refine ⟨hstop, fun hall => ?_⟩
  rcases (hc.safe_iff hfits hsum true).mp hall with hhead | hbody
  · have := hhead 0 (by decide)
    rw [getD_twoBlocks (by decide)] at this
    exact absurd this (by decide)
  · have := hbody 512 (by decide) (by decide) (by rw [length_twoBlocks]; decide)
    rw [getD_twoBlocks (by decide)] at this
    exact absurd this (by decide)

end ArduinoT2.Ota
