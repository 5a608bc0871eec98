import ArduinoT2.Ota.Session

/-
  Which flash operations a run of the update issues, and under which protection.

  * `ota_protected`: every erase and every write runs under half protection, and behind every
    call the flash is fully protected again.
  * `ota_confined`: every erase and every write stays in the upgrade slot, in every run that
    neither ends a session without a header nor takes a packet whose blocks go past the slot.
    `ota_unconfined`: an end without a header erases the first sector of the flash.
-/

namespace ArduinoT2.Ota

open ArduinoT2.Vendor ArduinoT2.Adapter StepSys

/-! ## Protection -/

theorem final_guarded {s : Ota} (h : Valid s) (cs : List OtaCall) :
    Guarded (fun _ => True) s.flash (final otaStep s cs).flash :=
  final_rel (I := Valid) (C := fun _ _ => True)
    (R := fun s t => Guarded (fun _ => True) s.flash t.flash) (fun s => .refl _ s.flash)
    (fun _ _ _ => Guarded.trans)
    (fun _ c hv _ => ⟨otaStep_valid hv c, (otaStep_guarded hv c).mono fun _ _ => trivial⟩) h
    (along_of_forall (fun _ _ => trivial) s cs)

/-- In every run from full protection, with any packets and any failures, every operation of the
    flash is issued under half protection, and the run ends in full protection. -/
theorem ota_protected {flash : FlashDev} (hall : getFlashProtect flash = some .all)
    (mallocs : List Bool) (writes : List WriteFate) (lowMem : Nor.Mem → Block)
    (cs : List OtaCall) :
    let s := final otaStep (Ota.boot flash mallocs writes lowMem) cs
    (∃ issued, s.flash.log = flash.log ++ issued ∧
      ∀ e ∈ issued, e.2 = flash.cfg.protectOf .half) ∧
    getFlashProtect s.flash = some .all := by
  intro s
  have h := final_guarded (valid_boot flash mallocs writes lowMem) cs
  obtain ⟨ops, _, _, hlog⟩ := h.ops
  refine ⟨⟨_, hlog, fun e he => ?_⟩, ?_⟩
  · obtain ⟨o, _, rfl⟩ := List.mem_map.mp he
    rfl
  · rw [getFlashProtect_eq_all, h.cfg]
    exact h.protect ((getFlashProtect_eq_all flash).mp hall)

theorem ota_protected_sample :
    let s := final otaStep (Ota.boot blankFlash [] [] fun _ => erasedBlock)
      (sampleCalls ++ [.endNotify true])
    (∃ issued, s.flash.log = blankFlash.log ++ issued ∧
      ∀ e ∈ issued, e.2 = blankFlash.cfg.protectOf .half) ∧
    getFlashProtect s.flash = some .all :=
  ota_protected blankFlash_protect [] [] (fun _ => erasedBlock)
    (sampleCalls ++ [OtaCall.endNotify true])

/-! ## The upgrade slot -/

/-- The address lies in the upgrade slot. -/
def InSlot (a : Nat) : Prop := ugStartAddr.toNat ≤ a ∧ a < ugStartAddr.toNat + otaMaxBinSize

/-- The call erases and programs addresses of the slot only. -/
def Confined (s : Ota) (c : OtaCall) : Prop := ∀ o ∈ issued s c, ∀ a, o.Touches a → InSlot a

/-- The call leaves the slot alone or keeps to it: a session is ended behind a header, or the
    buffer to end it cannot be allocated, and the blocks of a packet of the image fit the slot,
    or the buffers for its first block cannot be allocated. -/
def StaysInside (s : Ota) : OtaCall → Prop
  | .startNotify _ => True
  | .dataProcess pack => ∀ p, s.ugProc = some p → p.stat = .recvImgData → FirstFails s ∨
      p.recvDataCnt.toNat + rtImgWrUnit * (pack.data.length / rtImgWrUnit) ≤ otaMaxBinSize
  | .endNotify _ => ∀ p, s.ugProc = some p → s.malloc.1 = true → p.stat ≠ .recvHeader

/-- A session of whole blocks, all of them inside the slot. -/
def BlocksInside (s : Ota) : Prop := ∀ p, s.ugProc = some p → p.stat = .recvImgData →
  rtImgWrUnit ∣ p.recvDataCnt.toNat ∧ p.recvDataCnt.toNat ≤ otaMaxBinSize

theorem endSec_slot {size : UInt32} (h : size.toNat < otaMaxBinSize) :
    endSec ugStartAddr size = (0x12A000 + size.toNat - 1) / 4096 := by
  simp only [otaMaxBinSize] at h
  simp [endSec, UInt32.toNat_sub, UInt32.toNat_add, ugStartAddr_toNat]
  omega

/-- The sectors of an image that fits the slot lie in the slot. -/
theorem erase_inSlot {c : FlashConfig} {size : UInt32} (hsize : size.toNat < otaMaxBinSize)
    {o : Nor.Op} (ho : o ∈ eraseOps c ugStartAddr size) {a : Nat} (ha : o.Touches a) :
    InSlot a := by
  have hmax : otaMaxBinSize = 679936 := rfl
  have hstart : startSec ugStartAddr = 0x12A := rfl
  have hend := endSec_slot hsize
  obtain ⟨i, h1, h2, rfl⟩ := mem_eraseOps (by omega) ho
  rw [hstart] at h1
  rw [hend] at h2
  have ha : 4096 * i ≤ a ∧ a < 4096 * i + 4096 := ha
  unfold InSlot
  rw [ugStartAddr_toNat]
  omega

/-- A write inside the slot programs pages of the slot. -/
theorem write_inSlot {addr len : Nat} (h1 : ugStartAddr.toNat ≤ addr)
    (h2 : addr + len ≤ ugStartAddr.toNat + otaMaxBinSize) {o : Nor.Op} (ho : WriteFoot addr len o)
    {a : Nat} (ha : o.Touches a) : InSlot a := by
  have hmax : otaMaxBinSize = 679936 := rfl
  obtain ⟨h3, h4⟩ := ho
  obtain ⟨h5, h6⟩ := ha
  unfold InSlot
  rw [ugStartAddr_toNat] at *
  omega

/-- A packet of the image that keeps to the slot issues operations of the slot. -/
theorem packet_inSlot {s : Ota} {p : UgProc} {n : Nat} (h : Session s p)
    (hst : p.stat = .recvImgData) (hdvd : rtImgWrUnit ∣ p.recvDataCnt.toNat)
    (hn : p.recvDataCnt.toNat + rtImgWrUnit * (n / rtImgWrUnit) ≤ otaMaxBinSize) {o : Nor.Op}
    (ho : PacketOp p s.firstBlock n o) {a : Nat} (ha : o.Touches a) : InSlot a := by
  have hmax : otaMaxBinSize = 679936 := rfl
  have hslot := ugStartAddr_toNat
  simp only [rtImgWrUnit] at hdvd hn
  have hcnt : ∀ k ≤ 512 * (n / 512),
      (p.recvDataCnt + UInt32.ofNat k).toNat = p.recvDataCnt.toNat + k := by
    intro k hk
    simp only [UInt32.toNat_add, UInt32.toNat_ofNat']
    omega
  have haddr : ∀ k ≤ 512 * (n / 512),
      (p.flashAddr + UInt32.ofNat k).toNat = 0x12A000 + p.recvDataCnt.toNat + k := by
    intro k hk
    rw [(h.image (by simp [hst])).2, UInt32.add_assoc, UInt32.toNat_add, hcnt k hk, hslot]
    omega
  cases ho with
  | blocks ho =>
    obtain ⟨j, hj, hjd, hop⟩ := ho
    have hfoot := hop.foot
    simp only [rtImgWrUnit] at hj hjd hfoot
    rw [haddr j (by omega)] at hfoot
    exact write_inSlot (by omega) (by omega) hfoot ha
  | tail k hk hkd hlt htail hfoot =>
    simp only [rtImgWrUnit] at hkd hlt
    have hk' : k ≤ 512 * (n / 512) := by omega
    -- the bytes left over end the image, so they begin below its last block
    have hlast : p.recvDataCnt.toNat + k + (n - k) ≤ otaMaxBinSize := by
      have hfits := p.fits
      obtain ⟨-, htail⟩ := htail
      rw [recvDataCnt_advance, UInt32.toNat_sub, hcnt k hk'] at htail
      omega
    rw [flashAddr_advance, haddr k hk'] at hfoot
    exact write_inSlot (by omega) (by omega) hfoot ha

/-- A packet of the image that keeps to the slot has room for its blocks, or changes neither the
    flash nor the session. -/
theorem stays_packet {s : Ota} {p : UgProc} {pack : OtaPack} (hb : BlocksInside s)
    (hp : s.ugProc = some p) (hst : p.stat = .recvImgData)
    (hc : StaysInside s (.dataProcess pack)) :
    p.recvDataCnt.toNat + rtImgWrUnit * (pack.data.length / rtImgWrUnit) ≤ otaMaxBinSize ∨
      (recvImgData s p pack.data).2.flash = s.flash ∧
        (recvImgData s p pack.data).2.ugProc = s.ugProc := by
  rcases hc p hp hst with hfail | hroom
  · rcases Nat.lt_or_ge pack.data.length rtImgWrUnit with hlt | hge
    · left
      rw [Nat.div_eq_of_lt hlt]
      exact (hb p hp hst).2
    · exact .inr (recvImgData_of_firstFails hfail p hge)
  · exact .inl hroom

theorem stays_confined {s : Ota} (hv : Valid s) (hb : BlocksInside s) {c : OtaCall}
    (hc : StaysInside s c) : Confined s c := by
  intro o ho a ha
  cases issued_of_guarded (otaStep_guarded hv c) o ho with
  | header pack o p hp hst hacc hop => exact erase_inSlot hacc.size hop ha
  | image pack o p hp hst hop =>
    rcases stays_packet hb hp hst hc with hroom | ⟨hfl, _⟩
    · exact packet_inSlot (hv p hp) hst (hb p hp hst).1 hroom hop ha
    · simp only [issued, otaStep, dataProcess_image hp hst, hfl, List.drop_length, List.map_nil,
        List.not_mem_nil] at ho
  | commit reset o p hp hm hsum hop =>
    have hstart := ((hv p hp).image (hc p hp hm)).1
    rw [hstart] at hop
    rcases hop with hop | hop
    · exact erase_inSlot (by decide) hop ha
    · exact write_inSlot (Nat.le_refl _) (by decide) hop ha

theorem stays_blocksInside {s : Ota} (hv : Valid s) (hb : BlocksInside s) {c : OtaCall}
    (hc : StaysInside s c) : BlocksInside (otaStep s c).1 := by
  have hone : ∀ {s' : Ota} {q : UgProc}, s'.ugProc = some q → (q.stat = .recvImgData →
      rtImgWrUnit ∣ q.recvDataCnt.toNat ∧ q.recvDataCnt.toNat ≤ otaMaxBinSize) →
      BlocksInside s' := by
    intro s' q hug hq p hp hst
    obtain rfl := Option.some.inj (hug.symm.trans hp)
    exact hq hst
  cases (otaStep_step hv c).outcome with
  | same hug _ _ => exact fun p hp => hb p (hug ▸ hp)
  | fresh hug _ => exact hone hug nofun
  | header pack _ p _ _ hacc hug _ => exact hone hug fun _ => ⟨Nat.dvd_zero _, Nat.zero_le _⟩
  | image pack hpack p hp hst k hk =>
    subst hpack
    rcases stays_packet hb hp hst hc with hroom | ⟨_, hug⟩
    · obtain ⟨hd, _⟩ := hb p hp hst
      have hdvd := hk.dvd
      have hle := hk.le
      rcases hk.ugProc with ⟨hug, _⟩ | ⟨m, _, _, hug, _⟩
      · refine hone hug fun _ => ?_
        simp only [rtImgWrUnit, otaMaxBinSize] at hdvd hd hroom ⊢
        rw [recvDataCnt_advance, UInt32.toNat_add, UInt32.toNat_ofNat']
        omega
      · exact hone hug nofun
    · rw [← dataProcess_image hp hst] at hug
      exact fun q hq => hb q (hug ▸ hq)
  | closed hug => exact fun p hp => by rw [hug] at hp; cases hp

/-- In every run from the boot whose calls keep to the slot, with any failures, each call erases
    and programs addresses of the slot only. -/
theorem ota_confined (flash : FlashDev) (mallocs : List Bool) (writes : List WriteFate)
    (lowMem : Nor.Mem → Block) (cs : List OtaCall)
    (h : Along otaStep StaysInside (Ota.boot flash mallocs writes lowMem) cs) :
    Along otaStep Confined (Ota.boot flash mallocs writes lowMem) cs :=
  along_of_inv (I := fun s => Valid s ∧ BlocksInside s) (C := StaysInside)
    (fun _ c hi hc => ⟨⟨otaStep_valid hi.1 c, stays_blocksInside hi.1 hi.2 hc⟩,
      stays_confined hi.1 hi.2 hc⟩)
    ⟨valid_boot flash mallocs writes lowMem, fun _ hp => by cases hp⟩ h

/-- A packet of the image does not take the session back to its header. -/
theorem stat_ne_of_image {s : Ota} {p q : UgProc} (hp : s.ugProc = some p)
    (hst : p.stat = .recvImgData) (pack : OtaPack)
    (hq : (otaStep s (.dataProcess pack)).1.ugProc = some q) : q.stat ≠ .recvHeader := by
  simp only [otaStep, dataProcess_image hp hst] at hq
  obtain ⟨k, hk⟩ := recvImgData_step hp pack.data
  rcases hk.ugProc with ⟨hug, _⟩ | ⟨m, _, _, hug, _⟩
  · obtain rfl := Option.some.inj (hug.symm.trans hq)
    rw [show (p.advance k).stat = p.stat from rfl, hst]
    intro he
    cases he
  · obtain rfl := Option.some.inj (hug.symm.trans hq)
    intro he
    cases he

/-- A session with its header, one block of the image, and its end. -/
theorem ota_confined_sample :
    Along otaStep Confined (Ota.boot blankFlash [] [] fun _ => erasedBlock)
    (sampleCalls ++ [.dataProcess samplePack, .endNotify true]) := by
  refine ota_confined blankFlash [] [] (fun _ => erasedBlock) _ ?_
  have hstart : Along otaStep StaysInside (Ota.boot blankFlash [] [] fun _ => erasedBlock)
      sampleCalls := by
    refine ⟨trivial, fun p hp hst => ?_, trivial⟩
    obtain rfl := Option.some.inj hp
    cases hst
  have hrest : Along otaStep StaysInside sampleState
      [.dataProcess samplePack, .endNotify true] := by
    refine ⟨fun p hp _ => .inr ?_, fun q hq _ => ?_, trivial⟩
    · obtain rfl := Option.some.inj (sampleState_ugProc.symm.trans hp)
      rw [length_samplePack]
      decide
    · exact stat_ne_of_image sampleState_ugProc rfl samplePack hq
  exact (along_append _ _ _ _).mpr ⟨hstart, hrest⟩

theorem sumMatches_zero (s : Ota) : SumMatches s .zero := by
  unfold SumMatches storedImage
  rw [show UgProc.zero.fileHeader.binLen.toNat = 0 from rfl, List.take_zero]
  rfl

/-- An end without a header finds the sum of no bytes and commits to address 0. -/
theorem end_without_header_erases {s : Ota} (hp : s.ugProc = some .zero)
    (hm : s.malloc.1 = true) (reset : Bool) :
    Nor.Op.erase 0 4096 ∈ issued s (.endNotify reset) := by
  have hfit : ∀ p, s.ugProc = some p → p.startAddr.toNat + p.fileHeader.binLen.toNat < 2 ^ 32 := by
    intro p hp'
    obtain rfl := Option.some.inj (hp.symm.trans hp')
    decide
  rcases tklOtaEndNotify_cases reset hfit with ⟨hnone, _⟩ |
    ⟨p, hp', ⟨hm', _⟩ | ⟨_, hsum, _⟩ | ⟨_, _, _, buf, ops, hc⟩⟩
  · rw [hp] at hnone
    cases hnone
  · rw [hm] at hm'
    cases hm'
  · obtain rfl := Option.some.inj (hp.symm.trans hp')
    exact absurd (sumMatches_zero s) hsum
  · obtain rfl := Option.some.inj (hp.symm.trans hp')
    have hsize := le_flashSize s.flash
    have herase : eraseOps s.flash.cfg UgProc.zero.startAddr (UInt32.ofNat bufSize) =
        [.erase 0 4096] :=
      eraseOps_eq_sectors (by decide) (Nat.le_trans (by decide) hsize)
    simp only [issued, otaStep]
    rw [hc.executes.log, List.drop_left, List.map_map, herase]
    exact List.mem_map.mpr ⟨_, List.mem_cons_self, rfl⟩

/-- A session that is ended right behind its start erases the first sector of the flash. -/
theorem ota_unconfined : ¬ Along otaStep Confined (Ota.boot blankFlash [] [] fun _ => erasedBlock)
    [.startNotify 1, .endNotify false] := by
  rintro ⟨-, hend, -⟩
  have hin := hend _ (end_without_header_erases rfl rfl false) 0 (by decide)
  exact absurd hin.1 (by decide)

end ArduinoT2.Ota
