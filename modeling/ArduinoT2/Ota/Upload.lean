import ArduinoT2.Ota.PacketOk

/-
  Packet streams when nothing fails.

  `Taking` is a session that has taken in a part of an image, `Taking.packet` what the next packet
  does to it. A caller that puts the bytes left over in front of the next packet (`presentStep`)
  brings every image of 512 bytes or more to its end, however it is cut, and no shorter one
  (`upload_finishes_iff`).
-/

namespace ArduinoT2.Ota

open ArduinoT2.Vendor ArduinoT2.Adapter StepSys

/-! ## The image taken in so far -/

/-- The slot lies in the chip. -/
def SlotFits (d : FlashDev) : Prop := ugStartAddr.toNat + otaMaxBinSize ≤ d.cfg.flashSize

/-- The first `n` bytes of the image `B` are there: the first block is saved and not in the
    flash, the others are in the flash, and what is to come is erased. -/
structure Holds (s : Ota) (B : List UInt8) (n : Nat) : Prop where
  saved : 0 < n → ∃ blk, s.fristBlockDatabuf = some blk ∧ blk.bytes = B.take rtImgWrUnit
  mem : SlotFits s.flash → ∀ i, i < B.length → s.flash.mem (ugStartAddr.toNat + i) =
    if rtImgWrUnit ≤ i ∧ i < n then B.getD i 0xFF else 0xFF

/-- A session, with no failures to come, that has taken in `n` bytes of the image `B` in blocks
    and is not at its end. -/
structure Taking (s : Ota) (p : UgProc) (B : List UInt8) (n : Nat) : Prop where
  mallocs : s.mallocs = []
  writes : s.writes = []
  session : Session s p
  ugProc : s.ugProc = some p
  stat : p.stat = .recvImgData
  first : s.firstBlock = decide (n = 0)
  recv : p.recvDataCnt.toNat = n
  binLen : p.fileHeader.binLen.toNat = B.length
  long : rtImgWrUnit ≤ B.length
  lt : n < B.length
  dvd : rtImgWrUnit ∣ n
  holds : Holds s B n

/-- A session, with no failures to come, that has taken in the whole image `B`. -/
structure Complete (s : Ota) (p : UgProc) (B : List UInt8) : Prop where
  mallocs : s.mallocs = []
  writes : s.writes = []
  session : Session s p
  ugProc : s.ugProc = some p
  stat : p.stat = .finish
  recv : p.recvDataCnt.toNat = B.length
  binLen : p.fileHeader.binLen.toNat = B.length
  long : rtImgWrUnit ≤ B.length
  holds : Holds s B B.length

theorem Taking.flashAddr {s : Ota} {p : UgProc} {B : List UInt8} {n : Nat} (h : Taking s p B n) :
    p.flashAddr.toNat = ugStartAddr.toNat + n := by
  have hfits := p.fits
  have hlt := h.lt
  rw [(h.session.image (by simp [h.stat])).2, UInt32.toNat_add, h.recv,
    ugStartAddr_toNat]
  rw [h.binLen] at hfits
  simp only [otaMaxBinSize] at hfits
  omega

/-- The bytes that the flash gets from a packet. -/
theorem programBlocks_apply (addr : Nat) (first : Bool) (bytes : List UInt8) (m : Nor.Mem)
    (i : Nat) : programBlocks addr first bytes m (addr + i) =
      if skipped first ≤ i then m (addr + i) &&& bytes.getD i 0xFF else m (addr + i) := by
  unfold programBlocks
  rw [Nor.program_exec]
  rcases Nat.lt_or_ge i (skipped first) with hlt | hge
  · rw [if_neg (by omega), if_neg (by omega)]
  · rw [if_pos (by omega), if_pos hge, Nor.getD_drop, show
      skipped first + (addr + i - (addr + skipped first)) = i by omega]

theorem programBlocks_of_lt {addr a : Nat} (h : a < addr) (first : Bool) (bytes : List UInt8)
    (m : Nor.Mem) : programBlocks addr first bytes m a = m a :=
  Nor.program_exec_lt (by omega) _ _

section Taking

variable {s s' : Ota} {p : UgProc} {B data rest : List UInt8} {n : Nat}

theorem Taking.length (h : Taking s p B n) (hB : B.drop n = data ++ rest) :
    n + data.length + rest.length = B.length := by
  have hl := congrArg List.length hB
  have hlt := h.lt
  simp only [List.length_drop, List.length_append] at hl
  omega

theorem Taking.within (h : Taking s p B n) (hB : B.drop n = data ++ rest) :
    p.recvDataCnt.toNat + data.length ≤ p.fileHeader.binLen.toNat := by
  have hlen := h.length hB
  rw [h.recv, h.binLen]
  omega

/-- The first block is saved with the packet that brings it, and no other. -/
theorem Taking.saved_packet (h : Taking s p B n) (hB : B.drop n = data ++ rest)
    (hok : PacketOk s p data s') (hlong : n = 0 → rtImgWrUnit ≤ data.length) :
    ∃ blk, s'.fristBlockDatabuf = some blk ∧ blk.bytes = B.take rtImgWrUnit := by
  have hfr := hok.frist
  rw [h.first] at hfr
  rcases Nat.eq_zero_or_pos n with rfl | hn
  · have hunit := hlong rfl
    rw [decide_eq_true rfl, if_pos rfl] at hfr
    obtain ⟨blk, hblk, hsome⟩ := hfr (by simp only [whole, rtImgWrUnit] at *; omega)
    refine ⟨blk, hsome, ?_⟩
    have htake := congrArg (List.take rtImgWrUnit) hB
    rw [List.drop_zero, List.take_append_of_le_length hunit] at htake
    rw [hblk, htake]
  · rw [decide_eq_false (Nat.ne_of_gt hn), if_neg Bool.false_ne_true] at hfr
    obtain ⟨blk, hsome, hblk⟩ := h.holds.saved hn
    exact ⟨blk, hfr.trans hsome, hblk⟩

/-- The flash behind a packet of which `k` bytes are taken in. -/
theorem Taking.mem_packet {k : Nat} (h : Taking s p B n) (hB : B.drop n = data ++ rest)
    (hok : PacketOk s p data s') (hk : k = taken p data.length) (hle : k ≤ data.length)
    (hslot' : SlotFits s'.flash) {i : Nat} (hi : i < B.length) :
    s'.flash.mem (ugStartAddr.toNat + i) =
      if rtImgWrUnit ≤ i ∧ i < n + k then B.getD i 0xFF else 0xFF := by
  have hslot : SlotFits s.flash := by
    unfold SlotFits at *
    rwa [← hok.cfg]
  have hmem : s'.flash.mem = programBlocks p.flashAddr.toNat s.firstBlock (data.take k)
      s.flash.mem := by
    have hlen := h.length hB
    have hfits := p.fits
    have hdvd := h.dvd
    have haddr := h.flashAddr
    have hsize := hslot
    unfold SlotFits at hsize
    rw [h.binLen] at hfits
    simp only [rtImgWrUnit, ugStartAddr_toNat] at hdvd haddr hsize
    rw [hk]
    exact hok.mem (by omega) (by omega)
  have hold := h.holds.mem hslot i hi
  rw [hmem, h.flashAddr]
  rcases Nat.lt_or_ge i n with hin | hin
  · -- a byte that was there before
    rw [programBlocks_of_lt (by omega), hold]
    simp only [hin, and_true, show i < n + k by omega]
  · obtain ⟨j, rfl⟩ := Nat.exists_eq_add_of_le hin
    rw [if_neg (by omega)] at hold
    rw [← Nat.add_assoc, programBlocks_apply, Nat.add_assoc, hold, Nor.ff_and, Nor.getD_take]
    have hskip : skipped s.firstBlock ≤ j ↔ rtImgWrUnit ≤ n + j := by
      have hdvd := h.dvd
      rw [h.first, skipped]
      simp only [decide_eq_true_eq, rtImgWrUnit] at *
      split <;> omega
    simp only [hskip, Nat.add_lt_add_iff_left]
    rcases Nat.lt_or_ge j k with hjk | hjk
    · have hdata : data.getD j 0xFF = B.getD (n + j) 0xFF := by
        rw [← Nor.getD_drop, hB, List.getD_append _ _ _ _ (by omega)]
      rw [if_pos hjk, hdata]
      simp only [hjk, and_true]
    · simp only [Nat.not_lt.mpr hjk, and_false, if_false, ite_self]

/-- The image held, behind a packet of which `k` bytes are taken in. -/
theorem Taking.holds_packet {k : Nat} (h : Taking s p B n) (hB : B.drop n = data ++ rest)
    (hok : PacketOk s p data s') (hk : k = taken p data.length) (hle : k ≤ data.length)
    (hlong : n = 0 → 0 < k → rtImgWrUnit ≤ data.length) : Holds s' B (n + k) :=
  ⟨fun hpos => h.saved_packet hB hok fun hn => hlong hn (by omega),
    fun hslot _ hi => h.mem_packet hB hok hk hle hslot hi⟩

/-- The last packet completes the image. -/
theorem Taking.packet_last (h : Taking s p B n) (hB : B.drop n = data)
    (hok : PacketOk s p data s') (hvalid : Valid s') :
    taken p data.length = data.length ∧ Complete s' (moved p data.length) B := by
  have hB' : B.drop n = data ++ [] := by rw [hB, List.append_nil]
  have hn : n + data.length = B.length := h.length hB'
  have hend : p.recvDataCnt.toNat + data.length = p.fileHeader.binLen.toNat := by
    rw [h.recv, h.binLen, hn]
  have htaken : taken p data.length = data.length := if_pos hend
  have hmoved : moved p data.length = finished p data.length := if_pos hend
  have hlong := h.long
  have hug := hok.ugProc
  refine ⟨htaken, hok.mallocs, hok.writesNil, hvalid _ hug, hug, ?_, ?_, ?_, h.long, ?_⟩
  · rw [hmoved]
    rfl
  · rw [hmoved, ← hn, ← h.recv]
    exact recvDataCnt_within (Nat.le_of_eq hend) (Nat.le_refl _)
  · rw [hmoved]
    exact h.binLen
  · rw [← hn]
    exact h.holds_packet hB' hok htaken.symm (Nat.le_refl _) fun hzero _ => by omega

/-- Any other packet takes the image further. -/
theorem Taking.packet_more (h : Taking s p B n) (hB : B.drop n = data ++ rest) (hrest : rest ≠ [])
    (hok : PacketOk s p data s') (hvalid : Valid s') :
    taken p data.length = whole data.length ∧
      Taking s' (moved p data.length) B (n + whole data.length) := by
  have hwhole := whole_le data.length
  have hlen := h.length hB
  have hpos : 0 < rest.length := List.length_pos_of_ne_nil hrest
  have hne : p.recvDataCnt.toNat + data.length ≠ p.fileHeader.binLen.toNat := by
    rw [h.recv, h.binLen]
    omega
  have htaken : taken p data.length = whole data.length := if_neg hne
  have hmoved : moved p data.length = p.advance (whole data.length) := if_neg hne
  have hug := hok.ugProc
  refine ⟨htaken, hok.mallocs, hok.writesNil, hvalid _ hug, hug, ?_, ?_, ?_, ?_, h.long,
    by omega, Nat.dvd_add h.dvd hok.dvd, ?_⟩
  · rw [hmoved]
    exact h.stat
  · rw [hok.first, h.first, Bool.eq_iff_iff]
    simp
  · rw [hmoved, recvDataCnt_within (h.within hB) hwhole, h.recv]
  · rw [hmoved]
    exact h.binLen
  · refine h.holds_packet hB hok htaken.symm hwhole fun _ hk => ?_
    simp only [whole, rtImgWrUnit] at *
    omega

/-- A packet that goes on where the image has been taken in so far: the last one completes the
    image, any other leaves less than a block of its bytes to the caller. -/
theorem Taking.packet (h : Taking s p B n) (hB : B.drop n = data ++ rest) :
    ∃ s' r p', tklOtaDataProcess s data = (⟨oprtOk, some r⟩, s') ∧ r ≤ data.length ∧
      p'.fileHeader = p.fileHeader ∧ (rest = [] ∧ r = 0 ∧ Complete s' p' B ∨
        rest ≠ [] ∧ Taking s' p' B (n + (data.length - r))) := by
  obtain ⟨s', hok, heq⟩ := recvImgData_ok h.mallocs h.writes h.ugProc (h.session.first h.stat)
    (h.binLen ▸ h.long) (h.within hB)
  have hdp := (dataProcess_image h.ugProc h.stat data).trans heq
  have hvalid : Valid s' := by
    obtain ⟨k, hk⟩ := recvImgData_step h.ugProc data
    have := hk.session h.session h.stat
    rwa [heq] at this
  have hheader : (moved p data.length).fileHeader = p.fileHeader := by
    unfold moved
    split <;> rfl
  refine ⟨s', data.length - taken p data.length, moved p data.length, hdp, Nat.sub_le _ _, hheader,
    ?_⟩
  rcases Decidable.em (rest = []) with rfl | hrest
  · obtain ⟨htaken, hc⟩ := h.packet_last (hB.trans (List.append_nil _)) hok hvalid
    exact .inl ⟨rfl, by rw [htaken, Nat.sub_self], hc⟩
  · obtain ⟨htaken, ht⟩ := h.packet_more hB hrest hok hvalid
    rw [htaken, Nat.sub_sub_self (whole_le _)]
    exact .inr ⟨hrest, ht⟩

end Taking

/-! ## The header -/

/-- The header of a packet is read from its first 32 bytes. -/
theorem fileHeaderOf_append {hdr : List UInt8} (h : hdrSize ≤ hdr.length) (extra : List UInt8) :
    fileHeaderOf (hdr ++ extra) = fileHeaderOf hdr := by
  have hbe : ∀ i, i + 3 < hdrSize → be32 (hdr ++ extra) i = be32 hdr i := by
    intro i hi
    unfold be32
    rw [List.getD_append _ _ _ _ (by omega), List.getD_append _ _ _ _ (by omega),
      List.getD_append _ _ _ _ (by omega), List.getD_append _ _ _ _ (by omega)]
  have h32 : hdrSize = 32 := rfl
  unfold fileHeaderOf
  rw [hbe 28 (by decide), hbe 24 (by decide), hbe 20 (by decide), hbe 16 (by decide),
    hbe 0 (by decide), List.drop_append_of_le_length (by omega),
    List.take_append_of_le_length (by rw [List.length_drop]; omega)]

theorem Accepts.append {hdr : List UInt8} (h : Accepts hdr) (extra : List UInt8) :
    Accepts (hdr ++ extra) := by
  have h32 : hdrSize = 32 := rfl
  have hlen := h.len
  obtain ⟨_, h1, h2, h3, h4⟩ := h
  rw [← fileHeaderOf_append hlen extra] at h1 h2 h3 h4
  refine ⟨by rw [List.length_append]; omega, h1, h2, ?_, h4⟩
  rwa [List.take_append_of_le_length (by omega)]

/-- A packet with a valid header at its front leaves the bytes behind it to the caller. -/
theorem dataProcess_accepts {s : Ota} {p : UgProc} {hdr : List UInt8} (hp : s.ugProc = some p)
    (hst : p.stat = .recvHeader) (hlen : hdr.length = hdrSize) (hacc : Accepts hdr)
    (extra : List UInt8) : tklOtaDataProcess s (hdr ++ extra) = (⟨oprtOk, some extra.length⟩,
      ({ s with ugProc := some (accepted (fileHeaderOf hdr) hacc.size) }).guardedErase ugStartAddr
        (fileHeaderOf hdr).binLen) := by
  have hhdr := fileHeaderOf_append (Nat.le_of_eq hlen.symm) extra
  rw [dataProcess_accepted hp hst (hacc.append extra), List.length_append, hlen,
    Nat.add_sub_cancel_left]
  simp only [hhdr]

/-- With a valid header nothing of the image is taken in. -/
theorem taking_of_header {s : Ota} {p : UgProc} {hdr B : List UInt8}
    (hm : s.mallocs = []) (hw : s.writes = []) (hs : Session s p) (hst : p.stat = .recvHeader)
    (hacc : Accepts hdr) (hB : (fileHeaderOf hdr).binLen.toNat = B.length)
    (hlong : rtImgWrUnit ≤ B.length) :
    Taking (({ s with ugProc := some (accepted (fileHeaderOf hdr) hacc.size) }).guardedErase
      ugStartAddr (fileHeaderOf hdr).binLen) (accepted (fileHeaderOf hdr) hacc.size) B 0 := by
  have hfirst := (hs.header hst).2
  refine ⟨?_, ?_, ?_, ugProc_guardedErase _ _ _, rfl, ?_, rfl, hB, hlong, ?_, Nat.dvd_zero _,
    ⟨fun h => absurd h (Nat.lt_irrefl 0), ?_⟩⟩
  · rw [mallocs_guardedErase]
    exact hm
  · rw [writes_guardedErase]
    exact hw
  · exact session_accepted _ (by rw [firstBlock_guardedErase]; exact hfirst)
  · rw [firstBlock_guardedErase]
    exact hfirst
  · exact Nat.lt_of_lt_of_le (by decide) hlong
  · intro hslot i hi
    have herase := guardedErase_spec { s with ugProc := some (accepted _ hacc.size) }
      ugStartAddr (fileHeaderOf hdr).binLen
    have hsize := hacc.size
    unfold SlotFits at hslot
    rw [herase.cfg] at hslot
    dsimp only at hslot
    have hsect := @eraseOps_eq_sectors s.flash ugStartAddr (fileHeaderOf hdr).binLen (by omega)
      (by omega)
    rw [herase.mem, hsect, Nor.execAll_sectors, hB,
      ugStartAddr_toNat, if_pos (by omega), if_neg (by omega)]

/-! ## Packet streams -/

/-- The caller of the update: it puts the bytes left over in front of the next chunk. -/
def presentStep (c : Ota × List UInt8) (chunk : List UInt8) : (Ota × List UInt8) × OtaRet :=
  let pkt := c.2 ++ chunk
  let r := tklOtaDataProcess c.1 pkt
  ((r.2, pkt.drop (pkt.length - r.1.remainLen.getD 0)), r.1)

/-- Where the caller stands that has a header `hdr` and an image `B` to present, of which `rest`
    is still to come. -/
inductive Uploading (hdr B : List UInt8) : Ota × List UInt8 → List UInt8 → Prop where
  | header (s : Ota) (left rest : List UInt8) (p : UgProc) (hm : s.mallocs = [])
      (hw : s.writes = []) (hs : Session s p) (hp : s.ugProc = some p)
      (hst : p.stat = .recvHeader) (hleft : left.length < hdrSize)
      (heq : left ++ rest = hdr ++ B) : Uploading hdr B (s, left) rest
  | image (s : Ota) (left rest : List UInt8) (p : UgProc) (n : Nat) (ht : Taking s p B n)
      (hh : p.fileHeader = fileHeaderOf hdr) (heq : B.drop n = left ++ rest) :
      Uploading hdr B (s, left) rest
  | complete (s : Ota) (p : UgProc) (hc : Complete s p B)
      (hh : p.fileHeader = fileHeaderOf hdr) : Uploading hdr B (s, []) []

variable {hdr B : List UInt8}

/-- A header and an image of a block or more that belong together. -/
structure HeaderOf (hdr B : List UInt8) : Prop where
  len : hdr.length = hdrSize
  accepts : Accepts hdr
  binLen : (fileHeaderOf hdr).binLen.toNat = B.length
  long : rtImgWrUnit ≤ B.length

theorem present_complete {s : Ota} {p : UgProc} (h : Complete s p B) :
    presentStep (s, []) [] = ((s, []), ⟨oprtOk, some 0⟩) := by
  unfold presentStep
  dsimp only
  rw [dataProcess_finish h.ugProc h.stat]
  rfl

/-- A caller who waits for the header: it is not there yet, or it is taken and the image is left. -/
theorem present_waiting (hf : HeaderOf hdr B) {s : Ota} {p : UgProc} {left chunk rest : List UInt8}
    (hp : s.ugProc = some p) (hst : p.stat = .recvHeader) (heq : left ++ chunk ++ rest = hdr ++ B) :
    ((left ++ chunk).length < hdrSize ∧ presentStep (s, left) chunk =
        ((s, left ++ chunk), ⟨oprtOk, some (left ++ chunk).length⟩)) ∨
      ∃ extra, B = extra ++ rest ∧ presentStep (s, left) chunk =
        ((({ s with ugProc := some (accepted (fileHeaderOf hdr) hf.accepts.size) }).guardedErase
          ugStartAddr (fileHeaderOf hdr).binLen, extra), ⟨oprtOk, some extra.length⟩) := by
  unfold presentStep
  dsimp only
  rcases Nat.lt_or_ge (left ++ chunk).length hdrSize with hlt | hge
  · have hdp : tklOtaDataProcess s (left ++ chunk) =
        (⟨oprtOk, some (left ++ chunk).length⟩, s) :=
      (dataProcess_header hp hst _).trans (if_pos hlt)
    rw [hdp]
    dsimp only
    rw [Option.getD_some, Nat.sub_self, List.drop_zero]
    exact .inl ⟨hlt, rfl⟩
  · obtain ⟨extra, hextra⟩ : ∃ extra, left ++ chunk = hdr ++ extra := by
      have htake := congrArg (List.take hdrSize) heq
      rw [List.take_append_of_le_length hge, List.take_left' hf.len] at htake
      exact ⟨_, by rw [← htake, List.take_append_drop]⟩
    rw [hextra, List.append_assoc, List.append_cancel_left_eq] at heq
    rw [hextra, dataProcess_accepts hp hst hf.len hf.accepts extra]
    dsimp only
    rw [Option.getD_some, List.length_append, Nat.add_sub_cancel, List.drop_left]
    exact .inr ⟨extra, heq.symm, rfl⟩

theorem present_uploading_header (hf : HeaderOf hdr B) {s : Ota} {p : UgProc}
    {left chunk rest : List UInt8} (hm : s.mallocs = []) (hw : s.writes = []) (hs : Session s p)
    (hp : s.ugProc = some p) (hst : p.stat = .recvHeader) (heq : left ++ chunk ++ rest = hdr ++ B) :
    Uploading hdr B (presentStep (s, left) chunk).1 rest ∧
      (presentStep (s, left) chunk).2.rc = oprtOk := by
  rcases present_waiting hf hp hst heq with ⟨hlt, hstep⟩ | ⟨extra, hB, hstep⟩
  · rw [hstep]
    exact ⟨.header s _ rest p hm hw hs hp hst hlt heq, rfl⟩
  · rw [hstep]
    exact ⟨.image _ extra rest _ 0 (taking_of_header hm hw hs hst hf.accepts hf.binLen hf.long) rfl
      hB, rfl⟩

/-- A caller in the image. -/
theorem present_uploading_image {s : Ota} {p : UgProc} {left chunk rest : List UInt8} {n : Nat}
    (ht : Taking s p B n) (hh : p.fileHeader = fileHeaderOf hdr)
    (heq : B.drop n = left ++ chunk ++ rest) :
    Uploading hdr B (presentStep (s, left) chunk).1 rest ∧
      (presentStep (s, left) chunk).2.rc = oprtOk := by
  obtain ⟨s', r, p', hdp, hle, hh', hout⟩ := ht.packet heq
  unfold presentStep
  dsimp only
  rw [hdp]
  dsimp only
  rw [Option.getD_some]
  rcases hout with ⟨rfl, rfl, hc⟩ | ⟨_, ht'⟩
  · rw [Nat.sub_zero, List.drop_length]
    exact ⟨.complete s' p' hc (hh'.trans hh), rfl⟩
  · refine ⟨.image s' _ rest p' _ ht' (hh'.trans hh) ?_, rfl⟩
    rw [← List.drop_drop, heq, List.drop_append_of_le_length (Nat.sub_le _ _)]

/-- A packet takes the caller further. -/
theorem present_uploading (hf : HeaderOf hdr B) {c : Ota × List UInt8} {chunk rest : List UInt8}
    (h : Uploading hdr B c (chunk ++ rest)) :
    Uploading hdr B (presentStep c chunk).1 rest ∧ (presentStep c chunk).2.rc = oprtOk := by
  generalize hr : chunk ++ rest = r at h
  cases h with
  | header s left _ p hm hw hs hp hst hleft heq =>
    subst hr
    rw [← List.append_assoc] at heq
    exact present_uploading_header hf hm hw hs hp hst heq
  | image s left _ p n ht hh heq =>
    subst hr
    rw [← List.append_assoc] at heq
    exact present_uploading_image ht hh heq
  | complete s p hc hh =>
    obtain ⟨rfl, rfl⟩ := List.append_eq_nil_iff.mp hr
    rw [present_complete hc]
    exact ⟨.complete s p hc hh, rfl⟩

/-- A run of packets takes the caller through all bytes of the chunks. -/
theorem final_uploading (hf : HeaderOf hdr B) {c : Ota × List UInt8} {chunks : List (List UInt8)}
    {rest : List UInt8} (h : Uploading hdr B c (chunks.flatten ++ rest)) :
    Uploading hdr B (final presentStep c chunks) rest ∧
      ∀ r ∈ outputs presentStep c chunks, r.rc = oprtOk := by
  induction chunks generalizing c with
  | nil => exact ⟨h, by simp⟩
  | cons chunk chunks ih =>
    rw [List.flatten_cons, List.append_assoc] at h
    obtain ⟨h₁, hrc⟩ := present_uploading hf h
    obtain ⟨h₂, hrcs⟩ := ih h₁
    refine ⟨h₂, fun r hr => ?_⟩
    rw [outputs_cons] at hr
    rcases List.mem_cons.mp hr with rfl | hr
    · exact hrc
    · exact hrcs r hr

/-- A start that does not fail opens a session. -/
theorem start_ok {s : Ota} (hm : s.mallocs = []) {n : UInt32} (hn : n ≠ 0) :
    let s' := (tklOtaStartNotify s n).2
    s'.ugProc = some .zero ∧ s'.firstBlock = true ∧ s'.mallocs = [] ∧ s'.writes = s.writes ∧
      s'.flash = s.flash := by
  unfold tklOtaStartNotify
  rw [if_neg hn]
  split
  · exact ⟨rfl, rfl, hm, rfl, rfl⟩
  · rw [malloc_nil hm]
    exact ⟨rfl, rfl, hm, rfl, rfl⟩

/-- A start behind the boot and an accepted header: the session waits for its image. -/
theorem start_accepted (flash : FlashDev) (writes : List WriteFate) (lowMem : Nor.Mem → Block)
    {pack : OtaPack} (hacc : Accepts pack.data) :
    let s := final otaStep (Ota.boot flash [] writes lowMem) [.startNotify 1, .dataProcess pack]
    s.mallocs = [] ∧ s.writes = writes ∧ s.firstBlock = true ∧
      s.ugProc = some (accepted _ hacc.size) ∧ s.flash.cfg = flash.cfg := by
  obtain ⟨hug, hfirst, hm, hw, hfl⟩ := @start_ok (Ota.boot flash [] writes lowMem) rfl 1 (by decide)
  have hstart : (otaStep (Ota.boot flash [] writes lowMem) (.startNotify 1)).1 =
    (tklOtaStartNotify (Ota.boot flash [] writes lowMem) 1).2 := rfl
  rw [final_cons, final_cons, final_nil, hstart]
  generalize (tklOtaStartNotify (Ota.boot flash [] writes lowMem) 1).2 = s at *
  rw [otaStep_accepted hug rfl hacc]
  refine ⟨(mallocs_guardedErase _ _ _).trans hm, (writes_guardedErase _ _ _).trans hw,
    (firstBlock_guardedErase _ _ _).trans hfirst, ugProc_guardedErase _ _ _, ?_⟩
  rw [(guardedErase_spec _ _ _).cfg]
  exact congrArg FlashDev.cfg hfl

theorem uploading_start {s : Ota} (hm : s.mallocs = []) (hw : s.writes = []) {n : UInt32}
    (hn : n ≠ 0) (hdr B : List UInt8) :
    Uploading hdr B ((tklOtaStartNotify s n).2, []) (hdr ++ B) := by
  obtain ⟨hug, hfirst, hm', hw', _⟩ := start_ok hm hn
  exact .header _ _ _ .zero hm' (hw'.trans hw) (session_zero hfirst) hug rfl (by decide) rfl

/-- With all bytes presented, one more call with the bytes left over completes the image. -/
theorem present_last (hf : HeaderOf hdr B) {c : Ota × List UInt8} (h : Uploading hdr B c []) :
    ∃ s p, (presentStep c []).1 = (s, []) ∧ Complete s p B ∧ p.fileHeader = fileHeaderOf hdr := by
  cases h with
  | header s left _ p hm hw hs hp hst hleft heq =>
    have hlen := congrArg List.length heq
    have := hf.len
    simp only [List.length_append, List.length_nil] at hlen
    omega
  | image s left _ p n ht hh heq =>
    obtain ⟨s', r, p', hdp, hle, hh', ⟨_, rfl, hc⟩ | ⟨hne, _⟩⟩ := ht.packet heq
    · refine ⟨s', p', ?_, hc, hh'.trans hh⟩
      unfold presentStep
      dsimp only
      rw [List.append_nil, hdp]
      dsimp only
      rw [Option.getD_some, Nat.sub_zero, List.drop_length]
    · exact absurd rfl hne
  | complete s p hc hh => exact ⟨s, p, by rw [present_complete hc], hc, hh⟩

/-- The session is finished and no byte is left over. -/
def Finished (c : Ota × List UInt8) : Prop :=
  c.2 = [] ∧ ∃ p, c.1.ugProc = some p ∧ p.stat = .finish

/-- Less than a block at the start of an image is left to the caller, also when the image is no
    longer than that: `bin_len - 512` has wrapped around then. -/
theorem present_waits {s : Ota} {p : UgProc} (hp : s.ugProc = some p) (hst : p.stat = .recvImgData)
    (hzero : p.recvDataCnt = 0) {left : List UInt8} (hlen : left.length < rtImgWrUnit) :
    presentStep (s, left) [] = ((s, left), ⟨oprtOk, some left.length⟩) := by
  have hwait : recvImgData s p left = (⟨oprtOk, some left.length⟩, s) :=
    if_pos ⟨hlen, by rw [hzero, UInt32.le_iff_toNat_le]; exact Nat.zero_le _⟩
  unfold presentStep
  dsimp only
  rw [List.append_nil, dataProcess_image hp hst, hwait]
  dsimp only
  rw [Option.getD_some, Nat.sub_self, List.drop_zero]

theorem final_waits {s : Ota} {p : UgProc} (hp : s.ugProc = some p) (hst : p.stat = .recvImgData)
    (hzero : p.recvDataCnt = 0) {left : List UInt8} (hlen : left.length < rtImgWrUnit) (m : Nat) :
    final presentStep (s, left) (List.replicate m []) = (s, left) := by
  induction m with
  | zero => rfl
  | succ m ih =>
    rw [List.replicate_succ, final_cons, present_waits hp hst hzero hlen]
    exact ih

/-- The header and the image in one packet: the image is left over. -/
theorem present_header {s : Ota} {p : UgProc} (hp : s.ugProc = some p) (hst : p.stat = .recvHeader)
    (hlen : hdr.length = hdrSize) (hacc : Accepts hdr) (B : List UInt8) :
    ∃ s', (presentStep (s, []) (hdr ++ B)).1 = (s', B) ∧
      s'.ugProc = some (accepted (fileHeaderOf hdr) hacc.size) := by
  have hdp := dataProcess_accepts hp hst hlen hacc B
  refine ⟨(tklOtaDataProcess s (hdr ++ B)).2, ?_, by rw [hdp, ugProc_guardedErase]⟩
  unfold presentStep
  dsimp only
  rw [List.nil_append, hdp]
  dsimp only
  rw [Option.getD_some, List.length_append, Nat.add_sub_cancel, List.drop_left]

/-- An image of less than a block never ends, however often its bytes are presented. -/
theorem short_not_finished {s : Ota} (hm : s.mallocs = []) {n : UInt32} (hn : n ≠ 0)
    (hlen : hdr.length = hdrSize) (hacc : Accepts hdr) (hshort : B.length < rtImgWrUnit) (m : Nat) :
    ¬ Finished (final presentStep ((tklOtaStartNotify s n).2, [])
      ([hdr ++ B] ++ List.replicate m [])) := by
  rintro ⟨-, p, hp, hst⟩
  obtain ⟨hug, _⟩ := start_ok hm hn
  obtain ⟨s', hfirst, hs'⟩ := present_header hug rfl hlen hacc B
  rw [final_append, final_cons, final_nil, hfirst, final_waits hs' rfl rfl hshort] at hp
  obtain rfl := Option.some.inj (hs'.symm.trans hp)
  cases hst

/-- Every image with a given valid header is brought to its end, however header and image are
    cut into chunks, exactly when the header announces a block or more. -/
theorem upload_finishes_iff {s : Ota} (hm : s.mallocs = []) (hw : s.writes = []) {n : UInt32}
    (hn : n ≠ 0) (hlen : hdr.length = hdrSize) (hacc : Accepts hdr) :
    (∀ B chunks, B.length = (fileHeaderOf hdr).binLen.toNat → chunks.flatten = hdr ++ B →
      ∃ m, Finished (final presentStep ((tklOtaStartNotify s n).2, [])
        (chunks ++ List.replicate m []))) ↔
      rtImgWrUnit ≤ (fileHeaderOf hdr).binLen.toNat := by
  constructor
  · intro hall
    rcases Nat.lt_or_ge (fileHeaderOf hdr).binLen.toNat rtImgWrUnit with hshort | hge
    · obtain ⟨m, hfin⟩ := hall (List.replicate _ 0) [hdr ++ List.replicate _ 0]
        List.length_replicate (List.flatten_singleton ..)
      exact absurd hfin
        (short_not_finished hm hn hlen hacc (by rwa [List.length_replicate]) m)
    · exact hge
  · intro hlong B chunks hB hchunks
    have hf : HeaderOf hdr B := ⟨hlen, hacc, hB.symm, hB ▸ hlong⟩
    have hstart := uploading_start hm hw hn hdr B
    rw [← hchunks, ← List.append_nil chunks.flatten] at hstart
    obtain ⟨s', p, hlast, hc, _⟩ := present_last hf (final_uploading hf hstart).1
    refine ⟨1, ?_⟩
    rw [final_append, List.replicate_one, final_cons, final_nil, hlast]
    exact ⟨rfl, p, hc.ugProc, hc.stat⟩

theorem upload_finishes_sample :
    ∃ m, Finished (final presentStep
      ((tklOtaStartNotify (Ota.boot blankFlash [] [] fun _ => erasedBlock) 1).2, [])
      ([sampleHeader.take 20, sampleHeader.drop 20 ++ samplePack.data.take 100,
        samplePack.data.drop 100] ++ List.replicate m [])) := by
  refine (upload_finishes_iff rfl rfl (by decide) rfl accepts_sampleHeader).mpr (by decide)
    samplePack.data _ length_samplePack ?_
  simp only [List.flatten_cons, List.flatten_nil, List.append_nil, ← List.append_assoc,
    List.take_append_drop]
  rw [List.append_assoc, List.take_append_drop]

/-- The header of an image of 256 bytes `0x00`. -/
def shortHeader : List UInt8 :=
  [0x55, 0xaa, 0x55, 0xaa] ++ List.replicate 12 0 ++
    [0x00, 0x00, 0x01, 0x00, 0x00, 0x00, 0x00, 0x00, 0x00, 0x00, 0x01, 0xff,
      0xaa, 0x55, 0xaa, 0x55]

theorem accepts_shortHeader : Accepts shortHeader :=
  ⟨by decide, by decide, by decide, by decide, by decide⟩

/-- Its header is accepted, and the image gets stuck. -/
theorem upload_stuck : Accepts shortHeader ∧ (fileHeaderOf shortHeader).binLen.toNat = 256 ∧
    ∀ m, ¬ Finished (final presentStep
      ((tklOtaStartNotify (Ota.boot blankFlash [] [] fun _ => erasedBlock) 1).2, [])
      ([shortHeader ++ List.replicate 256 0x00] ++ List.replicate m [])) :=
  ⟨accepts_shortHeader, by decide, short_not_finished rfl (by decide) rfl accepts_shortHeader
    (by rw [List.length_replicate]; decide)⟩

end ArduinoT2.Ota
