import ArduinoT2.Ota.Upload

/-
  The counters of the update (`tkl_ota_data_process` of tkl_ota.c): `flash_addr`, `recv_data_cnt`
  and `*remain_len` on every return from the image.

  `ImgEnd` is how a packet ends, whatever fails in it. A packet that is taken in up to a byte
  moves both counters to it and leaves the bytes behind it to the caller (`AccountOk`). A body
  that is presented as it is never takes the counter past `bin_len`; when it is there the session
  is finished, unless the write of the bytes behind the last block has failed, even of none.
-/

namespace ArduinoT2.Ota

open ArduinoT2.Vendor ArduinoT2.Adapter StepSys

/-! ## One packet -/

/-- How a packet of `n` bytes ends in `UGS_RECV_IMG_DATA`. -/
inductive ImgEnd (p : UgProc) (n : Nat) (out : OtaRet × Ota) : Prop where
  | goesOn (k : Nat) (hk : k ≤ n) (hdvd : rtImgWrUnit ∣ k)
      (hug : out.2.ugProc = some (p.advance k)) (hrem : out.1.remainLen = some (n - k))
      (hrc : out.1.rc = oprtOk → (p.advance k).recvDataCnt < p.fileHeader.binLen ∨
        k = 0 ∧ n < rtImgWrUnit ∧
          p.recvDataCnt ≤ p.fileHeader.binLen - UInt32.ofNat rtImgWrUnit)
  | finishes (m : Nat) (hm : m ≤ n) (hug : out.2.ugProc = some (finished p m))
      (hrem : out.1.remainLen = some (n - m)) (hrc : out.1.rc = oprtOk)
      (hall : p.fileHeader.binLen ≤ (p.advance m).recvDataCnt)

theorem processFailed_ne_ok : oprtOsAdapterOtaProcessFailed ≠ oprtOk := by decide

/-- The bytes left over behind the `k` bytes of the loop. -/
theorem recvTail_end {s : Ota} {p : UgProc} {data : List UInt8} {k : Nat} (buf : Bool)
    (hug : s.ugProc = some (p.advance k)) (hk : k ≤ data.length) (hdvd : rtImgWrUnit ∣ k)
    (hlt : data.length < k + rtImgWrUnit) :
    ImgEnd p data.length (recvTail s (p.advance k) buf (data.drop k)) := by
  have hlen : (data.drop k).length = data.length - k := List.length_drop
  unfold recvTail
  split
  · rename_i htail
    rw [hlen] at htail
    have hall := le_advance_of_takesTail hlt (show TakesTail p data.length k from htail)
    dsimp only
    split
    · exact .goesOn k hk hdvd (by rw [ugProc_freeIf, ugProc_guardedWrite, hug]) (by rw [hlen])
        fun hrc => absurd hrc processFailed_ne_ok
    · rw [hlen, advance_advance]
      rw [Nat.add_sub_cancel' hk] at hall ⊢
      unfold finishCheck
      rw [if_pos (show (p.advance _).fileHeader.binLen ≤ _ from hall)]
      exact .finishes data.length (Nat.le_refl _) (ugProc_freeIf _ _) (by rw [Nat.sub_self]) rfl
        hall
  · unfold finishCheck
    split
    · rename_i hall
      exact .finishes k hk (ugProc_freeIf _ _) (by rw [hlen]) rfl hall
    · rename_i hnot
      exact .goesOn k hk hdvd hug (by rw [hlen]) fun _ => .inl (UInt32.not_le.mp hnot)

theorem recvImgData_end {s : Ota} {p : UgProc} (hp : s.ugProc = some p) (data : List UInt8) :
    ImgEnd p data.length (recvImgData s p data) := by
  unfold recvImgData
  split
  · rename_i hwait
    exact .goesOn 0 (Nat.zero_le _) (Nat.dvd_zero _) (by rw [advance_zero, hp]) rfl
      fun _ => .inr ⟨rfl, hwait⟩
  · obtain ⟨k, s₁, hl, ⟨heq, -⟩ | ⟨hlt, buf, heq⟩⟩ := blockLoop_step s p false data
    · rw [heq]
      exact .goesOn k hl.le hl.dvd (hl.ugProc hp) (congrArg some List.length_drop)
        fun hrc => absurd hrc processFailed_ne_ok
    · rw [heq]
      exact recvTail_end buf (hl.ugProc hp) hl.le hl.dvd hlt

/-! ## Every return -/

/-- The counters behind a packet that has met the session `p`. -/
structure Accounted (p : UgProc) (n : Nat) (out : OtaRet × Ota) (p' : UgProc) (r : Nat) : Prop where
  ugProc : out.2.ugProc = some p'
  remain : out.1.remainLen = some r
  addr : p'.flashAddr = p'.startAddr + p'.recvDataCnt
  blocks : p'.stat = .recvImgData → rtImgWrUnit ∣ p'.recvDataCnt.toNat
  le : r ≤ n
  moved : (p'.recvDataCnt - p.recvDataCnt).toNat = n - r

/-- What every return from the image must leave. -/
def AccountOk (s : Ota) : OtaCall → Prop
  | .dataProcess pack => ∀ p, s.ugProc = some p → p.stat = .recvImgData →
      ∃ p' r, Accounted p pack.data.length (tklOtaDataProcess s pack.data) p' r
  | _ => True

/-- A session in the image has received whole blocks. -/
def InBlocks (s : Ota) : Prop := ∀ p, s.ugProc = some p → p.stat = .recvImgData →
  rtImgWrUnit ∣ p.recvDataCnt.toNat

theorem dvd_advance {p : UgProc} (h : rtImgWrUnit ∣ p.recvDataCnt.toNat) {k : Nat}
    (hk : rtImgWrUnit ∣ k) : rtImgWrUnit ∣ (p.advance k).recvDataCnt.toNat := by
  rw [recvDataCnt_advance, UInt32.toNat_add, UInt32.toNat_ofNat']
  simp only [rtImgWrUnit] at *
  omega

theorem recvDataCnt_moved (p : UgProc) {m : Nat} (hm : m < 2 ^ 32) :
    ((p.advance m).recvDataCnt - p.recvDataCnt).toNat = m := by
  rw [recvDataCnt_advance, UInt32.toNat_sub, UInt32.toNat_add, UInt32.toNat_ofNat']
  have := p.recvDataCnt.toNat_lt
  omega

/-- The end of a packet is accounted for. -/
theorem ImgEnd.accounted {s : Ota} {p : UgProc} {n : Nat} {out : OtaRet × Ota}
    (h : ImgEnd p n out) (hs : Session s p) (hst : p.stat = .recvImgData)
    (hdvd : rtImgWrUnit ∣ p.recvDataCnt.toNat) (hn : n < 2 ^ 32) :
    ∃ p' r, Accounted p n out p' r := by
  obtain ⟨hstart, haddr⟩ := hs.image (by rw [hst]; exact (fun h => nomatch h))
  have hmove : ∀ m,
      (p.advance m).flashAddr = (p.advance m).startAddr + (p.advance m).recvDataCnt := by
    intro m
    rw [flashAddr_advance, recvDataCnt_advance, haddr, show (p.advance m).startAddr = ugStartAddr
      from hstart, UInt32.add_assoc]
  cases h with
  | goesOn k hk hdvdk hug hrem _ =>
    exact ⟨_, _, hug, hrem, hmove k, fun _ => dvd_advance hdvd hdvdk, Nat.sub_le _ _,
      by rw [recvDataCnt_moved p (by omega)]; omega⟩
  | finishes m hm hug hrem _ _ =>
    refine ⟨_, _, hug, hrem, hmove m, (fun h => nomatch h), Nat.sub_le _ _, ?_⟩
    show ((p.advance m).recvDataCnt - p.recvDataCnt).toNat = _
    rw [recvDataCnt_moved p (by omega)]
    omega

/-- No call leaves a part of a block behind. -/
theorem otaStep_inBlocks {s : Ota} (hv : Valid s) (h : InBlocks s) (c : OtaCall) :
    InBlocks (otaStep s c).1 := by
  intro q hq hst
  cases (otaStep_step hv c).outcome with
  | same hug _ _ => exact h q (hug ▸ hq) hst
  | fresh hug _ =>
    obtain rfl := Option.some.inj (hug.symm.trans hq)
    cases hst
  | header pack _ p _ _ hacc hug _ =>
    obtain rfl := Option.some.inj (hug.symm.trans hq)
    exact Nat.dvd_zero _
  | image pack hc p hp hst' k hk =>
    rcases hk.ugProc with ⟨hug, _⟩ | ⟨m, _, _, hug, _⟩
    · obtain rfl := Option.some.inj (hug.symm.trans hq)
      exact dvd_advance (h p hp hst') hk.dvd
    · obtain rfl := Option.some.inj (hug.symm.trans hq)
      cases hst
  | closed hug =>
    rw [hug] at hq
    cases hq

theorem accountOk {s : Ota} (hv : Valid s) (h : InBlocks s) (c : OtaCall) : AccountOk s c := by
  cases c with
  | dataProcess pack =>
    intro p hp hst
    rw [dataProcess_image hp hst]
    exact (recvImgData_end hp pack.data).accounted (hv p hp) hst (h p hp hst) pack.len_lt
  | startNotify n => trivial
  | endNotify reset => trivial

/-! ## The body of an image -/

/-- The counter behind a packet of the body: it has not passed the end of the image, and the
    session is finished if it is there and the call has not failed. -/
def BodyOk (c : Ota × List UInt8) (chunk : List UInt8) : Prop :=
  let r := presentStep c chunk
  ∃ p, r.1.1.ugProc = some p ∧ p.recvDataCnt ≤ p.fileHeader.binLen ∧
    (p.stat = .finish ↔ p.recvDataCnt = p.fileHeader.binLen ∧ r.2.rc = oprtOk)

/-- The same, with the session finished whenever the counter is at the end of the image. -/
def BodyExact (c : Ota × List UInt8) (chunk : List UInt8) : Prop :=
  let r := presentStep c chunk
  ∃ p, r.1.1.ugProc = some p ∧ p.recvDataCnt ≤ p.fileHeader.binLen ∧
    (p.stat = .finish ↔ p.recvDataCnt = p.fileHeader.binLen)

/-- A caller in the body with `n` bytes still to come. -/
structure InBody (c : Ota × List UInt8) (n : Nat) : Prop where
  pos : ∀ p, c.1.ugProc = some p → 0 < p.fileHeader.binLen.toNat
  session : ∃ p, c.1.ugProc = some p ∧
    p.recvDataCnt.toNat + c.2.length + n ≤ p.fileHeader.binLen.toNat ∧
    (p.stat = .recvImgData ∧ rtImgWrUnit ∣ p.recvDataCnt.toNat ∨
      p.stat = .finish ∧ p.recvDataCnt = p.fileHeader.binLen)

/-- With whole blocks and all of the image there, there is nothing to wait for. -/
theorem not_waits_at_end {p : UgProc} (hpos : 0 < p.fileHeader.binLen.toNat)
    (hdvd : rtImgWrUnit ∣ p.recvDataCnt.toNat)
    (hle : p.recvDataCnt ≤ p.fileHeader.binLen - UInt32.ofNat rtImgWrUnit) :
    p.recvDataCnt ≠ p.fileHeader.binLen := by
  intro hall
  have hfits := p.fits
  rw [hall, UInt32.le_iff_toNat_le, UInt32.toNat_sub, UInt32.toNat_ofNat'] at hle
  rw [hall] at hdvd
  simp only [rtImgWrUnit, otaMaxBinSize] at *
  omega

/-- A packet of the image within the body. -/
theorem InBody.image {s : Ota} {p : UgProc} {left chunk : List UInt8} {n : Nat}
    (hpos : 0 < p.fileHeader.binLen.toNat) (hp : s.ugProc = some p) (hst : p.stat = .recvImgData)
    (hdvd : rtImgWrUnit ∣ p.recvDataCnt.toNat)
    (hn : p.recvDataCnt.toNat + (left ++ chunk).length + n ≤ p.fileHeader.binLen.toNat) :
    InBody (presentStep (s, left) chunk).1 n ∧ BodyOk (s, left) chunk := by
  have hfits := p.fits
  simp only [otaMaxBinSize] at hfits
  unfold BodyOk presentStep
  dsimp only
  rw [dataProcess_image hp hst]
  cases recvImgData_end hp (left ++ chunk) with
  | goesOn k hk hdvdk hug hrem hrc =>
    have hwithin := @recvDataCnt_within p _ _ (by omega) hk
    refine ⟨⟨fun q hq => ?_, _, hug, ?_, .inl ⟨hst, dvd_advance hdvd hdvdk⟩⟩, _, hug, ?_, ?_⟩
    · obtain rfl := Option.some.inj (hug.symm.trans hq)
      exact hpos
    · rw [hrem, Option.getD_some, List.length_drop, hwithin]
      show _ ≤ p.fileHeader.binLen.toNat
      omega
    · rw [UInt32.le_iff_toNat_le, hwithin]
      show _ ≤ p.fileHeader.binLen.toNat
      omega
    · refine iff_of_false (fun h => ?_) ?_
      · rw [show (p.advance k).stat = p.stat from rfl, hst] at h
        cases h
      · rintro ⟨hall, hok⟩
        have hall : (p.advance k).recvDataCnt = p.fileHeader.binLen := hall
        rcases hrc hok with hlt | ⟨rfl, -, hle⟩
        · rw [hall] at hlt
          exact UInt32.lt_irrefl _ hlt
        · rw [advance_zero] at hall
          exact not_waits_at_end hpos hdvd hle hall
  | finishes m hm hug hrem hrc hall =>
    have hwithin := @recvDataCnt_within p _ _ (by omega) hm
    rw [UInt32.le_iff_toNat_le, hwithin] at hall
    have hend : (finished p m).recvDataCnt = (finished p m).fileHeader.binLen := by
      refine UInt32.toNat_inj.mp (hwithin.trans ?_)
      show _ = p.fileHeader.binLen.toNat
      omega
    refine ⟨⟨fun q hq => ?_, _, hug, ?_, .inr ⟨rfl, hend⟩⟩, _, hug, ?_, ?_⟩
    · obtain rfl := Option.some.inj (hug.symm.trans hq)
      exact hpos
    · rw [hrem, Option.getD_some, List.length_drop,
        show (finished p m).recvDataCnt.toNat = _ from hwithin]
      show _ ≤ p.fileHeader.binLen.toNat
      omega
    · rw [hend]
      exact UInt32.le_refl _
    · exact iff_of_true rfl ⟨hend, hrc⟩

theorem InBody.step {c : Ota × List UInt8} {chunk : List UInt8} {n : Nat}
    (h : InBody c (chunk.length + n)) : InBody (presentStep c chunk).1 n ∧ BodyOk c chunk := by
  obtain ⟨s, left⟩ := c
  obtain ⟨hpos, p, hp, hn, ⟨hst, hdvd⟩ | ⟨hst, hend⟩⟩ := h
  · exact InBody.image (hpos p hp) hp hst hdvd (by rw [List.length_append]; dsimp only at hn; omega)
  · have hdp := dataProcess_finish (show s.ugProc = some p from hp) hst (left ++ chunk)
    unfold BodyOk presentStep
    dsimp only
    rw [hdp]
    refine ⟨⟨hpos, p, hp, ?_, .inr ⟨hst, hend⟩⟩, p, hp, ?_, iff_of_true hst ⟨hend, rfl⟩⟩
    · rw [Option.getD_some, Nat.sub_zero, List.drop_length]
      dsimp only at hn ⊢
      rw [List.length_nil]
      omega
    · rw [hend]
      exact UInt32.le_refl _

/-- The body, however it is cut. -/
theorem InBody.along {chunks : List (List UInt8)} : ∀ {c : Ota × List UInt8},
    InBody c chunks.flatten.length → Along presentStep BodyOk c chunks := by
  induction chunks with
  | nil => exact fun _ => trivial
  | cons chunk chunks ih =>
    intro c h
    rw [List.flatten_cons, List.length_append] at h
    obtain ⟨hbody, hok⟩ := h.step
    exact ⟨hok, ih hbody⟩

/-- For every flash, every pattern of failures and every sequence of calls: every return from the
    image is accounted for, and from there the bytes of the body that are left, however they are
    cut, take the counter to the end of the image at most, where the session is finished if and
    only if the call has not failed. -/
theorem ota_accounting (flash : FlashDev) (mallocs : List Bool) (writes : List WriteFate)
    (lowMem : Nor.Mem → Block) (cs : List OtaCall) :
    Along otaStep AccountOk (Ota.boot flash mallocs writes lowMem) cs ∧
      ∀ p, (final otaStep (Ota.boot flash mallocs writes lowMem) cs).ugProc = some p →
        p.stat = .recvImgData → 0 < p.fileHeader.binLen.toNat →
        ∀ chunks : List (List UInt8),
          p.recvDataCnt.toNat + chunks.flatten.length ≤ p.fileHeader.binLen.toNat →
          Along presentStep BodyOk (final otaStep (Ota.boot flash mallocs writes lowMem) cs, [])
            chunks := by
  have hboot : Valid (Ota.boot flash mallocs writes lowMem) ∧
      InBlocks (Ota.boot flash mallocs writes lowMem) :=
    ⟨valid_boot flash mallocs writes lowMem, (fun p hp => nomatch hp)⟩
  have hstep : ∀ s c, Valid s ∧ InBlocks s → Valid (otaStep s c).1 ∧ InBlocks (otaStep s c).1 :=
    fun s c hI => ⟨otaStep_valid hI.1 c, otaStep_inBlocks hI.1 hI.2 c⟩
  refine ⟨along_of_inv (I := fun s => Valid s ∧ InBlocks s) (C := fun _ _ => True)
    (fun s c hI _ => ⟨hstep s c hI, accountOk hI.1 hI.2 c⟩) hboot
    (along_of_forall (fun _ _ => trivial) _ _), ?_⟩
  intro p hp hst hpos chunks hlen
  obtain ⟨-, hblocks⟩ := final_of_inv (I := fun s => Valid s ∧ InBlocks s) hstep hboot cs
  refine InBody.along ⟨fun q hq => ?_, p, hp, by simpa using hlen, .inl ⟨hst, hblocks p hp hst⟩⟩
  obtain rfl := Option.some.inj (hp.symm.trans hq)
  exact hpos

/-- The state behind a start and a header, and what the writes behind it meet. -/
def headerState (writes : List WriteFate) : Ota :=
  final otaStep (Ota.boot blankFlash [] writes fun _ => erasedBlock)
    [.startNotify 1, .dataProcess ⟨sampleHeader, length_sampleHeader⟩]

theorem headerState_spec (writes : List WriteFate) : (headerState writes).mallocs = [] ∧
    (headerState writes).writes = writes ∧
    (headerState writes).ugProc = some (accepted _ accepts_sampleHeader.size) := by
  obtain ⟨hm, hw, -, hug, -⟩ := @start_accepted blankFlash writes (fun _ => erasedBlock)
    ⟨sampleHeader, by decide⟩ accepts_sampleHeader
  exact ⟨hm, hw, hug⟩

theorem ota_accounting_sample :
    Along otaStep AccountOk (Ota.boot blankFlash [] [] fun _ => erasedBlock)
        [.startNotify 1, .dataProcess ⟨sampleHeader, by decide⟩] ∧
      Along presentStep BodyOk (headerState [], []) [List.replicate 512 0x01] := by
  obtain ⟨haccount, hbody⟩ := ota_accounting blankFlash [] [] (fun _ => erasedBlock)
    [.startNotify 1, .dataProcess ⟨sampleHeader, by decide⟩]
  refine ⟨haccount, hbody _ (headerState_spec []).2.2 rfl (by decide) _ ?_⟩
  rw [List.flatten_singleton, List.length_replicate]
  decide

/-- An image of one block whose write is done, but not that of no bytes behind it. -/
theorem lastWrite_fails {s : Ota} {p : UgProc} (hm : s.mallocs = [])
    (hw : s.writes = [.ok, .fail []]) (hp : s.ugProc = some p) (hst : p.stat = .recvImgData)
    (hrecv : p.recvDataCnt = 0) (hbin : p.fileHeader.binLen = 512) {data : List UInt8}
    (hlen : data.length = rtImgWrUnit) :
    (tklOtaDataProcess s data).2.ugProc = some (p.advance rtImgWrUnit) := by
  have hunit : rtImgWrUnit ≤ data.length := Nat.le_of_eq hlen.symm
  obtain ⟨s₁, buf, hblock, hb⟩ := writeBlock_ok hm (by unfold fate; rw [hw]; rfl) p false
    ⟨data.take rtImgWrUnit, List.length_take_of_le hunit⟩
  have hdrop : (data.drop rtImgWrUnit).length = 0 := by rw [List.length_drop, hlen, Nat.sub_self]
  have hloop : blockLoop s p false data = .ok ({ s₁ with ugProc := some (p.advance rtImgWrUnit) },
      p.advance rtImgWrUnit, buf, data.drop rtImgWrUnit) := by
    rw [blockLoop, dif_pos hunit, hblock]
    dsimp only
    rw [blockLoop, dif_neg (by rw [hdrop]; decide)]
  have hrc := (guardedWrite_spec { s₁ with ugProc := some (p.advance rtImgWrUnit) }
    (p.advance rtImgWrUnit).flashAddr (data.drop rtImgWrUnit)).elim fun ops h =>
      (h.fail [] (by unfold fate; rw [hb.writes, hw]; rfl)).1
  have htail : (p.advance rtImgWrUnit).fileHeader.binLen - UInt32.ofNat rtImgWrUnit <
      (p.advance rtImgWrUnit).recvDataCnt ∧ ((p.advance rtImgWrUnit).fileHeader.binLen -
        (p.advance rtImgWrUnit).recvDataCnt).toNat ≤ (data.drop rtImgWrUnit).length := by
    rw [recvDataCnt_advance, hrecv, show (p.advance rtImgWrUnit).fileHeader.binLen = 512 from hbin,
      hdrop]
    decide
  have hne : oprtComError ≠ oprtOk := by decide
  rw [dataProcess_image hp hst]
  unfold recvImgData
  rw [if_neg (by omega), hloop]
  dsimp only
  unfold recvTail
  rw [if_pos htail]
  dsimp only
  rw [if_pos (by rw [hrc]; exact hne), ugProc_freeIf, ugProc_guardedWrite]

/-- All bytes of the image are there and the session is not finished. -/
theorem ota_accounting_unfinished :
    ¬Along presentStep BodyExact (headerState [.ok, .fail []], []) [List.replicate 512 0x01] := by
  obtain ⟨hm, hw, hp⟩ := headerState_spec [.ok, .fail []]
  rintro ⟨⟨p, hug, -, hfinish⟩, -⟩
  have hbin : (fileHeaderOf sampleHeader).binLen = 512 := by decide
  have hlen : (List.replicate 512 (0x01 : UInt8)).length = rtImgWrUnit := List.length_replicate
  have hlast := lastWrite_fails hm hw hp rfl rfl hbin hlen
  unfold presentStep at hug
  dsimp only at hug
  rw [List.nil_append, hlast] at hug
  obtain rfl := Option.some.inj hug
  exact nomatch hfinish.mpr ((UInt32.zero_add 512).trans hbin.symm)

end ArduinoT2.Ota
