import ArduinoT2.Ota.Install
import ArduinoT2.Ota.Safety

/-
  The first block of the slot before the commit.

  `ota_unexposed`: from the erase behind an accepted header until an end finds the sum, the first
  512 bytes of the slot are erased in every intermediate memory, whatever packets come and
  whatever fails, as long as the counter `recv_data_cnt` does not wrap around. `ota_exposed`: it
  wraps around in three packets of almost 2^31 bytes whose last write fails, and the next block
  is written to the start of the slot.
-/

namespace ArduinoT2.Ota

open ArduinoT2.Vendor ArduinoT2.Adapter StepSys

/-! ## Operations that leave the first block erased -/

/-- The address lies in the first block of the slot. -/
def SlotHead (a : Nat) : Prop := ugStartAddr.toNat ≤ a ∧ a < ugStartAddr.toNat + rtImgWrUnit

/-- A write of a block or less, `q` bytes behind the start of the slot. -/
theorem keepsErased_behind {q len : Nat} (hdvd : rtImgWrUnit ∣ q) (hpos : rtImgWrUnit ≤ q)
    (hq : q < 2 ^ 32) (hlen : len ≤ rtImgWrUnit) {o : Nor.Op}
    (ho : WriteFoot ((ugStartAddr.toNat + q) % 2 ^ 32) len o) : o.KeepsErased SlotHead := by
  refine Nor.keepsErased_of_not_touches fun a ha ht => ?_
  obtain ⟨h1, h2⟩ := ho
  obtain ⟨h3, h4⟩ := ht
  unfold SlotHead at ha
  simp only [rtImgWrUnit, ugStartAddr_toNat] at *
  omega

/-- A session of whole blocks, some of them once the first block is behind it. -/
def Ahead (s : Ota) : Prop := ∀ p, s.ugProc = some p → p.stat = .recvImgData →
  rtImgWrUnit ∣ p.recvDataCnt.toNat ∧ (s.firstBlock = false → p.recvDataCnt.toNat ≠ 0)

/-- The operations of a packet that does not make the counter wrap around. -/
theorem packet_keepsErased {s : Ota} {p : UgProc} {n : Nat} (h : Session s p)
    (hst : p.stat = .recvImgData) (hdvd : rtImgWrUnit ∣ p.recvDataCnt.toNat)
    (hpos : s.firstBlock = false → p.recvDataCnt.toNat ≠ 0) (hn : p.recvDataCnt.toNat + n < 2 ^ 32)
    {o : Nor.Op} (ho : PacketOp p s.firstBlock n o) : o.KeepsErased SlotHead := by
  have haddr : ∀ k ≤ n, (p.flashAddr + UInt32.ofNat k).toNat =
      (ugStartAddr.toNat + (p.recvDataCnt.toNat + k)) % 2 ^ 32 := by
    intro k hk
    rw [(h.image (by simp [hst])).2, UInt32.toNat_add, UInt32.toNat_add, UInt32.toNat_ofNat']
    omega
  cases ho with
  | blocks ho =>
    obtain ⟨j, hj, hjd, hop⟩ := ho
    cases hb : s.firstBlock && j == 0 with
    | true =>
      -- dummy data in place of the first block
      rw [hb] at hop
      obtain ⟨a, bs, rfl, hff⟩ := hop.blank rfl (by
        rw [haddr j (by omega), ugStartAddr_toNat]
        simp only [rtImgWrUnit] at hdvd hjd
        omega)
      exact Nor.keepsErased_program_ff _ _ hff
    | false =>
      have hfoot := hop.foot
      rw [haddr j (by omega)] at hfoot
      refine keepsErased_behind (Nat.dvd_add hdvd hjd) ?_ (by omega) (Nat.le_refl _) hfoot
      rw [Bool.and_eq_false_iff] at hb
      have hne : p.recvDataCnt.toNat + j ≠ 0 := by
        rcases hb with hb | hb
        · have := hpos hb
          omega
        · have : j ≠ 0 := by simpa using hb
          omega
      exact Nat.le_of_dvd (Nat.pos_of_ne_zero hne) (Nat.dvd_add hdvd hjd)
  | tail k hk hkd hlt htail hfoot =>
    rw [flashAddr_advance, haddr k hk] at hfoot
    refine keepsErased_behind (Nat.dvd_add hdvd hkd) ?_ (by omega) (by omega) hfoot
    refine Nat.le_of_dvd (Nat.pos_of_ne_zero fun hzero => ?_) (Nat.dvd_add hdvd hkd)
    -- the last bytes are behind some block
    have hlast := htail.1
    rw [UInt32.lt_iff_toNat_lt, recvDataCnt_advance, UInt32.toNat_add, UInt32.toNat_ofNat'] at hlast
    omega

/-- The operations of an erase of the slot. -/
theorem erase_keepsErased {c : FlashConfig} {size : UInt32} {o : Nor.Op}
    (hsize : size.toNat < otaMaxBinSize) (ho : o ∈ eraseOps c ugStartAddr size) :
    o.KeepsErased SlotHead := by
  have hend := endSec_slot hsize
  simp only [otaMaxBinSize] at hsize
  obtain ⟨i, _, _, rfl⟩ := mem_eraseOps (by omega) ho
  exact Nor.keepsErased_erase _ _ _

/-! ## The steps before the commit -/

/-- A packet of the image does not make the counter wrap around. -/
def CounterFits (s : Ota) : OtaCall → Prop
  | .dataProcess pack => ∀ p, s.ugProc = some p → p.stat = .recvImgData →
      p.recvDataCnt.toNat + pack.data.length < 2 ^ 32
  | _ => True

/-- An end does not find the sum. -/
def EndsUnmatched (s : Ota) : OtaCall → Prop
  | .endNotify _ => ∀ p, s.ugProc = some p → s.malloc.1 = true → ¬ SumMatches s p
  | _ => True

/-- A step before the commit. -/
def BeforeCommit (s : Ota) (c : OtaCall) : Prop := EndsUnmatched s c ∧ CounterFits s c

theorem callOp_keepsErased {s : Ota} (hv : Valid s) (ha : Ahead s) {c : OtaCall}
    (hc : BeforeCommit s c) {o : Nor.Op} (ho : CallOp s c o) : o.KeepsErased SlotHead := by
  cases ho with
  | header pack o p hp hst hacc hop =>
    exact erase_keepsErased hacc.size hop
  | image pack o p hp hst hop =>
    obtain ⟨hdvd, hpos⟩ := ha p hp hst
    exact packet_keepsErased (hv p hp) hst hdvd hpos (hc.2 p hp hst) hop
  | commit reset o p hp hm hsum hop => exact absurd hsum (hc.1 p hp hm)

/-- Behind a step before the commit the blocks passed are whole blocks again. -/
theorem beforeCommit_ahead {s : Ota} (hv : Valid s) (ha : Ahead s) {c : OtaCall}
    (hc : BeforeCommit s c) : Ahead (otaStep s c).1 := by
  intro q hq hst
  cases (otaStep_step hv c).outcome with
  | same hug hfirst _ =>
    rw [hfirst]
    exact ha q (hug ▸ hq) hst
  | fresh hug _ =>
    obtain rfl := Option.some.inj (hug.symm.trans hq)
    cases hst
  | header pack _ p _ _ hacc hug hfirst =>
    obtain rfl := Option.some.inj (hug.symm.trans hq)
    rw [hfirst]
    exact ⟨Nat.dvd_zero _, nofun⟩
  | image pack hpack p hp hst' k hk =>
    subst hpack
    obtain ⟨hdvd, hpos⟩ := ha p hp hst'
    have hn := hc.2 p hp hst'
    have hle := hk.le
    rcases hk.ugProc with ⟨hug, _⟩ | ⟨m, _, _, hug, _⟩
    · obtain rfl := Option.some.inj (hug.symm.trans hq)
      have hrecv : (p.advance k).recvDataCnt.toNat = p.recvDataCnt.toNat + k := by
        rw [recvDataCnt_advance, UInt32.toNat_add, UInt32.toNat_ofNat']
        omega
      rw [hrecv, hk.first]
      refine ⟨Nat.dvd_add hdvd hk.dvd, fun hf => ?_⟩
      rcases Bool.and_eq_false_iff.mp hf with hf | hf
      · have := hpos hf
        omega
      · have : k ≠ 0 := by simpa using hf
        omega
    · obtain rfl := Option.some.inj (hug.symm.trans hq)
      cases hst
  | closed hug =>
    rw [hug] at hq
    cases hq

/-- The steps before the commit leave the first block of the slot erased. -/
theorem beforeCommit_guarded {s : Ota} (hv : Valid s) (ha : Ahead s) {cs : List OtaCall}
    (hc : Along otaStep BeforeCommit s cs) :
    Guarded (Nor.Op.KeepsErased SlotHead) s.flash (final otaStep s cs).flash :=
  final_rel (I := fun s => Valid s ∧ Ahead s) (C := BeforeCommit)
    (R := fun s t => Guarded (Nor.Op.KeepsErased SlotHead) s.flash t.flash)
    (fun s => .refl _ s.flash) (fun _ _ _ => Guarded.trans)
    (fun _ c hi hc => ⟨⟨otaStep_valid hi.1 c, beforeCommit_ahead hi.1 hi.2 hc⟩,
      (otaStep_guarded hi.1 c).mono fun _ ho => callOp_keepsErased hi.1 hi.2 hc ho⟩)
    ⟨hv, ha⟩ hc

/-! ## Runs without a failing write -/

/-- The counter is far from wrapping around in a session of the image. -/
def FarBelow (s : Ota) : Prop := ∀ p, s.ugProc = some p → p.stat = .recvImgData →
  p.recvDataCnt.toNat < otaMaxBinSize

/-- When no write fails, a session that goes on has not got all bytes of its image. -/
theorem farBelow_step {s : Ota} (hv : Valid s) (hb : FarBelow s) (hok : ¬ SomeFail s)
    (c : OtaCall) : FarBelow (otaStep s c).1 := by
  intro q hq hst
  cases (otaStep_step hv c).outcome with
  | same hug _ _ => exact hb q (hug ▸ hq) hst
  | fresh hug _ =>
    obtain rfl := Option.some.inj (hug.symm.trans hq)
    cases hst
  | header pack _ p _ _ hacc hug _ =>
    obtain rfl := Option.some.inj (hug.symm.trans hq)
    exact (by decide : 0 < otaMaxBinSize)
  | image pack _ p hp hst' k hk =>
    rcases hk.ugProc with ⟨hug, hwhy⟩ | ⟨m, _, _, hug, _⟩
    · obtain rfl := Option.some.inj (hug.symm.trans hq)
      rcases hwhy with rfl | hlt | hfail
      · rw [advance_zero]
        exact hb p hp hst'
      · exact Nat.lt_trans (UInt32.lt_iff_toNat_lt.mp hlt) p.fits
      · exact absurd hfail hok
    · obtain rfl := Option.some.inj (hug.symm.trans hq)
      cases hst
  | closed hug =>
    rw [hug] at hq
    cases hq

/-- Packets of less than 2^31 bytes do not make the counter wrap around when no write fails. -/
theorem counterFits_of_ok {s : Ota} (hv : Valid s) (hb : FarBelow s) (hok : ¬ SomeFail s)
    {cs : List OtaCall} (hlen : ∀ pack, .dataProcess pack ∈ cs → pack.data.length < 2 ^ 31) :
    Along otaStep CounterFits s cs := by
  induction cs generalizing s with
  | nil => trivial
  | cons c cs ih =>
    refine ⟨?_, ih (otaStep_valid hv c) (farBelow_step hv hb hok c)
      (fun hfail => hok (hfail.of_suffix (otaStep_step hv c).writes))
      fun pack hp => hlen pack (List.mem_cons_of_mem _ hp)⟩
    cases c with
    | dataProcess pack =>
      intro p hp hst
      have h1 := hb p hp hst
      have h2 := hlen pack List.mem_cons_self
      simp only [otaMaxBinSize] at h1
      omega
    | _ => trivial

/-! ## The guarantee -/

/-- An end that finds another sum reports the failure and leaves the flash alone. -/
def KeepsUnmatched (s : Ota) : OtaCall → Prop
  | .endNotify reset => ∀ p, s.ugProc = some p → s.malloc.1 = true → ¬ SumMatches s p →
      (tklOtaEndNotify s reset).1 = oprtOsAdapterOtaEndInformFailed ∧
        (tklOtaEndNotify s reset).2.flash.mem = s.flash.mem ∧
        (tklOtaEndNotify s reset).2.flash.log = s.flash.log
  | _ => True

theorem keepsUnmatched {s : Ota} (hv : Valid s) (c : OtaCall) : KeepsUnmatched s c := by
  cases c with
  | endNotify reset =>
    intro p hp hm hno
    rcases tklOtaEndNotify_cases reset (fun p hp => (hv p hp).fits) with ⟨hnone, _⟩ |
      ⟨q, hq, ⟨hm', _⟩ | ⟨_, _, hrc, hd⟩ | ⟨_, hsum, _⟩⟩
    · rw [hp] at hnone
      cases hnone
    · rw [hm] at hm'
      cases hm'
    · refine ⟨hrc, (hd.executes 0).mem, ?_⟩
      simpa using (hd.executes 0).log
    · obtain rfl := Option.some.inj (hp.symm.trans hq)
      exact absurd hsum hno
  | _ => trivial

/-- The sectors of an image of a byte or more begin with the first one of the slot. -/
theorem eraseOps_slot {d : FlashDev} {size : UInt32} (hpos : 0 < size.toNat)
    (hmax : size.toNat < otaMaxBinSize) (hslot : ugStartAddr.toNat < d.cfg.flashSize) :
    ∃ rest, eraseOps d.cfg ugStartAddr size = .erase ugStartAddr.toNat 4096 :: rest := by
  have hstart : startSec ugStartAddr = 0x12A := rfl
  have hend := endSec_slot hmax
  obtain ⟨n, hn⟩ : ∃ n, endSec ugStartAddr size + 1 - startSec ugStartAddr = n + 1 :=
    ⟨endSec ugStartAddr size - 0x12A, by omega⟩
  have hop : eraseOp d.cfg (partitionSize * 0x12A) = [.erase ugStartAddr.toNat 4096] :=
    eraseOp_of_lt (flashSize_le d) hslot
  unfold eraseOps
  rw [hn, List.range'_succ, List.flatMap_cons, hstart, hop]
  exact ⟨_, rfl⟩

/-- An accepted header erases the first sector of the slot and opens a session in which nothing
    is received. -/
theorem header_spec {s : Ota} {p : UgProc} {pack : OtaPack} (hv : Valid s)
    (hp : s.ugProc = some p) (hst : p.stat = .recvHeader) (hacc : Accepts pack.data)
    (hbin : 1 ≤ (fileHeaderOf pack.data).binLen.toNat)
    (hslot : ugStartAddr.toNat < s.flash.cfg.flashSize) :
    let t := (otaStep s (.dataProcess pack)).1
    Ahead t ∧ FarBelow t ∧ t.flash.cfg = s.flash.cfg ∧
      ∃ rest, (∀ o ∈ rest, o.KeepsErased SlotHead) ∧
        t.flash.mem = Nor.execAll (.erase ugStartAddr.toNat 4096 :: rest) s.flash.mem ∧
        t.flash.log = s.flash.log ++ (.erase ugStartAddr.toNat 4096 :: rest).map fun o =>
          (o, s.flash.cfg.protectHalf) := by
  intro t
  have ht : t = ({ s with ugProc := some (accepted _ hacc.size) }).guardedErase ugStartAddr
      (fileHeaderOf pack.data).binLen := otaStep_accepted hp hst hacc
  have hex := guardedErase_spec { s with ugProc := some (accepted _ hacc.size) } ugStartAddr
    (fileHeaderOf pack.data).binLen
  rw [← ht] at hex
  have hug : t.ugProc = some (accepted _ hacc.size) := by
    rw [ht, ugProc_guardedErase]
  have hfirst : t.firstBlock = true := by
    rw [ht, firstBlock_guardedErase]
    exact ((hv p hp).header hst).2
  obtain ⟨rest, hrest⟩ := eraseOps_slot hbin hacc.size hslot
  have hops := fun o => erase_keepsErased (c := s.flash.cfg) (o := o) hacc.size
  rw [hrest] at hops
  refine ⟨fun q hq _ => ?_, fun q hq _ => ?_, hex.cfg, rest,
    fun o ho => hops o (List.mem_cons_of_mem _ ho), ?_, ?_⟩
  · obtain rfl := Option.some.inj (hug.symm.trans hq)
    rw [hfirst]
    exact ⟨Nat.dvd_zero _, nofun⟩
  · obtain rfl := Option.some.inj (hug.symm.trans hq)
    exact (by decide : 0 < otaMaxBinSize)
  · rw [hex.mem]
    dsimp only
    rw [hrest]
  · rw [hex.log]
    dsimp only
    rw [hrest]

/-- From the erase behind a header of an image of a byte or more, and as long as no end finds the
    sum, the first block of the slot is erased in every intermediate memory, if no flash write
    fails or the counter never wraps around. -/
theorem ota_unexposed (flash : FlashDev) (mallocs : List Bool) (writes : List WriteFate)
    (lowMem : Nor.Mem → Block) (before after : List OtaCall) {p : UgProc} {pack : OtaPack} :
    let s := final otaStep (Ota.boot flash mallocs writes lowMem) before
    let t := (otaStep s (.dataProcess pack)).1
    ugStartAddr.toNat < s.flash.cfg.flashSize →
    s.ugProc = some p → p.stat = .recvHeader → Accepts pack.data →
    1 ≤ (fileHeaderOf pack.data).binLen.toNat →
    (∀ pack', .dataProcess pack' ∈ after → pack'.data.length < 2 ^ 31) →
    Along otaStep EndsUnmatched t after →
    (¬ SomeFail t ∨ Along otaStep CounterFits t after) →
    (∃ ops, (final otaStep t after).flash.mem = Nor.execAll ops s.flash.mem ∧
      (final otaStep t after).flash.log =
        s.flash.log ++ (ops.map fun o => (o, s.flash.cfg.protectHalf)) ∧
      ∀ k, 1 ≤ k → ∀ i, i < rtImgWrUnit →
        Nor.execAll (ops.take k) s.flash.mem (ugStartAddr.toNat + i) = 0xFF) ∧
    ∀ cs, Along otaStep KeepsUnmatched (Ota.boot flash mallocs writes lowMem) cs := by
  intro s t hslot hp hst hacc hbin hlen hend hfit
  have hv : Valid s := final_valid (valid_boot flash mallocs writes lowMem) before
  have hvt : Valid t := otaStep_valid hv _
  obtain ⟨hahead, hbelow, hcfg, rest, hrest, hmem, hlog⟩ := header_spec hv hp hst hacc hbin hslot
  have hcount : Along otaStep CounterFits t after :=
    hfit.elim (fun hok => counterFits_of_ok hvt hbelow hok hlen) id
  obtain ⟨ops, hops, hmem', hlog'⟩ :=
    (beforeCommit_guarded hvt hahead ((along_and _ _ _ _).mpr ⟨hend, hcount⟩)).ops
  refine ⟨⟨.erase ugStartAddr.toNat 4096 :: (rest ++ ops), ?_, ?_, ?_⟩, fun cs => ?_⟩
  · rw [hmem', hmem, ← Nor.execAll_append, List.cons_append]
  · rw [hlog', hlog, hcfg, List.append_assoc, ← List.map_append, List.cons_append]
  · intro k hk i hi
    obtain ⟨j, rfl⟩ := Nat.exists_eq_add_of_le hk
    rw [Nat.add_comm, List.take_succ_cons, Nor.execAll_cons]
    have hall : ∀ o ∈ rest ++ ops, o.KeepsErased SlotHead := by
      intro o ho
      rcases List.mem_append.mp ho with ho | ho
      · exact hrest o ho
      · exact hops o ho
    refine Nor.execAll_take_keepsErased hall (fun a ha => ?_) j _ ⟨by omega, by omega⟩
    exact Nor.erase_exec_of_mem ha.1 (Nat.lt_of_lt_of_le ha.2 (by decide)) _
  · exact along_of_inv (I := Valid) (C := fun _ _ => True)
      (fun _ c hv _ => ⟨otaStep_valid hv c, keepsUnmatched hv c⟩)
      (valid_boot flash mallocs writes lowMem) (along_of_forall (fun _ _ => trivial) _ _)

/-- The sample header behind the boot, and its image. -/
theorem ota_unexposed_sample :
    let s := final otaStep (Ota.boot blankFlash [] [] fun _ => erasedBlock) [.startNotify 1]
    let t := (otaStep s (.dataProcess ⟨sampleHeader, by decide⟩)).1
    (∃ ops, (final otaStep t [.dataProcess samplePack]).flash.mem = Nor.execAll ops s.flash.mem ∧
      (final otaStep t [.dataProcess samplePack]).flash.log =
        s.flash.log ++ (ops.map fun o => (o, s.flash.cfg.protectHalf)) ∧
      ∀ k, 1 ≤ k → ∀ i, i < rtImgWrUnit →
        Nor.execAll (ops.take k) s.flash.mem (ugStartAddr.toNat + i) = 0xFF) ∧
    ∀ cs, Along otaStep KeepsUnmatched (Ota.boot blankFlash [] [] fun _ => erasedBlock) cs := by
  refine ota_unexposed blankFlash [] [] (fun _ => erasedBlock) [.startNotify 1]
    [.dataProcess samplePack] (by decide) rfl rfl accepts_sampleHeader (by decide) ?_
    ⟨trivial, trivial⟩ (.inl ?_)
  · intro pack hpack
    obtain rfl := OtaCall.dataProcess.inj (List.mem_singleton.mp hpack)
    rw [length_samplePack]
    decide
  · rintro ⟨f, hf, _⟩
    cases hf

/-! ## The counter wraps around -/

/-- A block behind the first one whose write fails. -/
theorem writeBlock_fail {s : Ota} {mask : List UInt8} (hf : fate s = .fail mask)
    (hfirst : s.firstBlock = false) (p : UgProc) (buf : Bool) (blk : Block) :
    ∃ s', writeBlock s p buf blk = .error s' ∧ s'.mallocs = s.mallocs ∧
      s'.writes = s.writes.tail ∧ s'.ugProc = s.ugProc ∧ s'.firstBlock = false := by
  obtain ⟨ops, hw⟩ := guardedWrite_spec s p.flashAddr blk.bytes
  have hrc : (s.guardedWrite p.flashAddr blk.bytes).1 ≠ oprtOk := by
    rw [(hw.fail mask hf).1]
    decide
  unfold writeBlock
  rw [hfirst, if_neg Bool.false_ne_true]
  dsimp only
  rw [if_pos hrc]
  exact ⟨_, rfl, by simp, by simp, by simp, by simpa using hfirst⟩

/-- The loop over `m` blocks that are written and one whose write fails. -/
theorem blockLoop_fails {m : Nat} {fates : List WriteFate} {s : Ota} (hm : s.mallocs = [])
    (hw : s.writes = List.replicate m .ok ++ .fail [] :: fates)
    (hfirst : s.firstBlock = true → 0 < m) (p : UgProc) (hp : s.ugProc = some p) (buf : Bool)
    {rest : List UInt8} (hlen : rest.length = rtImgWrUnit * (m + 1)) :
    ∃ s' rest', blockLoop s p buf rest = .error (s', rest') ∧ s'.mallocs = [] ∧
      s'.writes = fates ∧ s'.firstBlock = false ∧
      s'.ugProc = some (p.advance (rtImgWrUnit * m)) := by
  induction m generalizing s p buf rest with
  | zero =>
    have hunit : rtImgWrUnit ≤ rest.length := Nat.le_of_eq (by rw [hlen, Nat.mul_one])
    have hf : s.firstBlock = false := by simpa using hfirst
    obtain ⟨s₁, heq, hm₁, hw₁, hug, hf₁⟩ := @writeBlock_fail s [] (by unfold fate; rw [hw]; rfl)
      hf p buf ⟨rest.take rtImgWrUnit, List.length_take_of_le hunit⟩
    rw [blockLoop, dif_pos hunit, heq]
    refine ⟨s₁, rest, rfl, hm₁.trans hm, by rw [hw₁, hw]; rfl, hf₁, ?_⟩
    rw [hug, hp, Nat.mul_zero, advance_zero]
  | succ m ih =>
    have hunit : rtImgWrUnit ≤ rest.length := by
      rw [hlen, Nat.mul_succ]
      exact Nat.le_add_left _ _
    obtain ⟨s₁, buf₁, heq, hb⟩ := writeBlock_ok hm (by unfold fate; rw [hw]; rfl) p buf
      ⟨rest.take rtImgWrUnit, List.length_take_of_le hunit⟩
    have hdrop : (rest.drop rtImgWrUnit).length = rtImgWrUnit * (m + 1) := by
      rw [List.length_drop, hlen, Nat.mul_succ, Nat.add_sub_cancel]
    obtain ⟨s₂, rest₂, heq₂, hm₂, hw₂, hf₂, hug₂⟩ := ih
      (s := { s₁ with ugProc := some (p.advance rtImgWrUnit) }) hb.mallocs
      (by rw [hb.writes, hw]; rfl) (fun h => by rw [hb.first] at h; cases h)
      (p.advance rtImgWrUnit) rfl buf₁ hdrop
    rw [blockLoop, dif_pos hunit, heq]
    refine ⟨s₂, rest₂, heq₂, hm₂, hw₂, hf₂, ?_⟩
    rw [hug₂, advance_advance, Nat.mul_succ, Nat.add_comm]

/-- A packet of `m + 1` blocks of zeros. -/
def zeroPack (m : Nat) (h : rtImgWrUnit * (m + 1) < 2 ^ 32) : OtaPack where
  data := List.replicate (rtImgWrUnit * (m + 1)) 0x00
  len_lt := by rwa [List.length_replicate]

/-- Such a packet, whose last write fails. -/
theorem zeroPack_fails {m : Nat} {fates : List WriteFate} {s : Ota} {p : UgProc}
    (hm : s.mallocs = []) (hw : s.writes = List.replicate m .ok ++ .fail [] :: fates)
    (hfirst : s.firstBlock = true → 0 < m) (hp : s.ugProc = some p) (hst : p.stat = .recvImgData)
    (h : rtImgWrUnit * (m + 1) < 2 ^ 32) :
    let s' := (otaStep s (.dataProcess (zeroPack m h))).1
    s'.mallocs = [] ∧ s'.writes = fates ∧ s'.firstBlock = false ∧
      s'.ugProc = some (p.advance (rtImgWrUnit * m)) := by
  have hlen : (zeroPack m h).data.length = rtImgWrUnit * (m + 1) := List.length_replicate
  obtain ⟨s', rest, heq, hs'⟩ := blockLoop_fails hm hw hfirst p hp false hlen
  have hnot : ¬ ((zeroPack m h).data.length < rtImgWrUnit ∧
      p.recvDataCnt ≤ p.fileHeader.binLen - UInt32.ofNat rtImgWrUnit) := by
    rw [hlen, Nat.mul_succ]
    exact fun hc => absurd hc.1 (Nat.not_lt.mpr (Nat.le_add_left _ _))
  simp only [otaStep, dataProcess_image hp hst, recvImgData, if_neg hnot, heq]
  exact hs'

/-- A block of zeros behind a counter of zero is written to the start of the slot when the first
    block is not due. -/
theorem zeroPack_exposes {s : Ota} {p : UgProc} (hm : s.mallocs = []) (hw : s.writes = [])
    (hfirst : s.firstBlock = false) (hp : s.ugProc = some p) (hst : p.stat = .recvImgData)
    (haddr : p.flashAddr = ugStartAddr) (hrecv : p.recvDataCnt = 0)
    (hlong : rtImgWrUnit ≤ p.fileHeader.binLen.toNat) (hslot : SlotFits s.flash)
    (h : rtImgWrUnit * (0 + 1) < 2 ^ 32) :
    (otaStep s (.dataProcess (zeroPack 0 h))).1.flash.mem ugStartAddr.toNat = 0x00 := by
  have hlen : (zeroPack 0 h).data.length = rtImgWrUnit := List.length_replicate
  obtain ⟨s', hok, heq⟩ := recvImgData_ok hm hw hp (fun hf => by rw [hfirst] at hf; cases hf) hlong
    (show _ + (zeroPack 0 h).data.length ≤ _ by
      rw [hlen, hrecv, UInt32.toNat_zero, Nat.zero_add]
      exact hlong)
  unfold SlotFits at hslot
  have hmax : rtImgWrUnit ≤ otaMaxBinSize := by decide
  have htaken : taken p rtImgWrUnit = rtImgWrUnit := by
    unfold taken
    split <;> rfl
  have hmem := hok.mem (by rw [haddr]; decide) (by
    rw [haddr, hlen]
    exact Nat.le_trans (Nat.add_le_add_left hmax _) hslot)
  have happly := programBlocks_apply ugStartAddr.toNat false (zeroPack 0 h).data s.flash.mem 0
  rw [Nat.add_zero, if_pos (show skipped false ≤ 0 by decide)] at happly
  simp only [otaStep, dataProcess_image hp hst, heq]
  rw [hmem, haddr, hfirst, hlen, htaken, List.take_of_length_le (Nat.le_of_eq hlen), happly,
    zeroPack, List.getD_eq_getElem _ _ (by rw [List.length_replicate]; decide),
    List.getElem_replicate]
  exact UInt8.and_zero

/-- Two long packets, a short one and one more block, in a session of the image: the writes that
    fail are those of the last blocks of the first three packets. -/
theorem zeroPacks_expose {m n : Nat} {s : Ota} {p : UgProc} (hm : s.mallocs = [])
    (hw : s.writes = List.replicate m .ok ++ .fail [] :: (List.replicate m .ok ++
      .fail [] :: (List.replicate n .ok ++ .fail [] :: [])))
    (hpos : 0 < m) (hp : s.ugProc = some p) (hst : p.stat = .recvImgData)
    (haddr : p.flashAddr = ugStartAddr) (hrecv : p.recvDataCnt = 0)
    (hlong : rtImgWrUnit ≤ p.fileHeader.binLen.toNat) (hslot : SlotFits s.flash)
    (hwrap : rtImgWrUnit * m + (rtImgWrUnit * m + rtImgWrUnit * n) = 2 ^ 32)
    (h1 : rtImgWrUnit * (m + 1) < 2 ^ 32) (h2 : rtImgWrUnit * (n + 1) < 2 ^ 32)
    (h3 : rtImgWrUnit * (0 + 1) < 2 ^ 32) :
    (final otaStep s [.dataProcess (zeroPack m h1), .dataProcess (zeroPack m h1),
      .dataProcess (zeroPack n h2), .dataProcess (zeroPack 0 h3)]).flash.mem
        ugStartAddr.toNat = 0x00 := by
  have hcfg (s : Ota) (pack : OtaPack) :
      (otaStep s (.dataProcess pack)).1.flash.cfg = s.flash.cfg := dataProcess_cfg s pack.data
  obtain ⟨hm₁, hw₁, hf₁, hp₁⟩ := zeroPack_fails hm hw (fun _ => hpos) hp hst h1
  have hcfg₁ := hcfg s (zeroPack m h1)
  rw [final_cons]
  generalize (otaStep s _).1 = s₁ at *
  obtain ⟨hm₂, hw₂, hf₂, hp₂⟩ :=
    zeroPack_fails hm₁ hw₁ (fun hf => by rw [hf₁] at hf; cases hf) hp₁ hst h1
  have hcfg₂ := hcfg s₁ (zeroPack m h1)
  rw [final_cons]
  generalize (otaStep s₁ _).1 = s₂ at *
  obtain ⟨hm₃, hw₃, hf₃, hp₃⟩ :=
    zeroPack_fails hm₂ hw₂ (fun hf => by rw [hf₂] at hf; cases hf) hp₂ hst h2
  have hcfg₃ := hcfg s₂ (zeroPack n h2)
  rw [final_cons]
  generalize (otaStep s₂ _).1 = s₃ at *
  rw [advance_advance, advance_advance, hwrap] at hp₃
  rw [final_cons, final_nil]
  refine zeroPack_exposes hm₃ hw₃ hf₃ hp₃ hst ?_ ?_ hlong ?_ h3
  · rw [flashAddr_advance, haddr]
    rfl
  · rw [recvDataCnt_advance, hrecv]
    rfl
  · unfold SlotFits at *
    rwa [hcfg₃, hcfg₂, hcfg₁]

/-- The outcomes of the writes of these packets. -/
def wrapFates : List WriteFate :=
  List.replicate 4194302 .ok ++ .fail [] :: (List.replicate 4194302 .ok ++
    .fail [] :: (List.replicate 4 .ok ++ .fail [] :: []))

/-- A session behind the header of an image of two blocks, and what its writes will meet. -/
def wrapState : Ota :=
  final otaStep (Ota.boot blankFlash [] wrapFates fun _ => erasedBlock)
    [.startNotify 1, .dataProcess ⟨twoBlocksHeader, by decide⟩]

theorem accepts_twoBlocksHeader : Accepts twoBlocksHeader :=
  (validHeader_twoBlocks.headerOf (by rw [length_twoBlocks]; decide)
    (by rw [length_twoBlocks]; decide)).accepts

theorem wrapState_spec : wrapState.mallocs = [] ∧ wrapState.writes = wrapFates ∧
    wrapState.ugProc = some (accepted _ accepts_twoBlocksHeader.size) ∧
    SlotFits wrapState.flash := by
  obtain ⟨hm, hw, -, hug, hcfg⟩ := @start_accepted blankFlash wrapFates (fun _ => erasedBlock)
    ⟨twoBlocksHeader, by decide⟩ accepts_twoBlocksHeader
  refine ⟨hm, hw, hug, ?_⟩
  unfold SlotFits wrapState
  rw [hcfg]
  exact slotFits_blank

/-- Three packets that make the counter wrap around, and one more block. -/
def wrapCalls : List OtaCall :=
  [.dataProcess (zeroPack 4194302 (by decide)), .dataProcess (zeroPack 4194302 (by decide)),
    .dataProcess (zeroPack 4 (by decide)), .dataProcess (zeroPack 0 (by decide))]

theorem length_wrapCalls {pack : OtaPack} (h : .dataProcess pack ∈ wrapCalls) :
    pack.data.length < 2 ^ 31 := by
  have hpack {m : Nat} (hm : rtImgWrUnit * (m + 1) < 2 ^ 32)
      (hlt : rtImgWrUnit * (m + 1) < 2 ^ 31) : (zeroPack m hm).data.length < 2 ^ 31 := by
    rwa [zeroPack, List.length_replicate]
  unfold wrapCalls at h
  simp only [List.mem_cons, OtaCall.dataProcess.injEq, List.not_mem_nil, or_false] at h
  rcases h with rfl | rfl | rfl | rfl
  · exact hpack _ (by decide)
  · exact hpack _ (by decide)
  · exact hpack _ (by decide)
  · exact hpack _ (by decide)

/-- With no end at all, the packets leave a byte `0x00` at the start of the slot. -/
theorem ota_exposed :
    1 ≤ (fileHeaderOf twoBlocksHeader).binLen.toNat ∧
      (∀ pack, .dataProcess pack ∈ wrapCalls → pack.data.length < 2 ^ 31) ∧
      Along otaStep EndsUnmatched wrapState wrapCalls ∧
      (final otaStep wrapState wrapCalls).flash.mem ugStartAddr.toNat = 0x00 := by
  obtain ⟨hm, hw, hug, hslot⟩ := wrapState_spec
  have hlong : rtImgWrUnit ≤ (fileHeaderOf twoBlocksHeader).binLen.toNat := by decide
  refine ⟨by decide, fun _ => length_wrapCalls, ?_, ?_⟩
  · unfold wrapCalls
    simp only [along_cons, along_nil, EndsUnmatched, and_self]
  · unfold wrapCalls
    exact zeroPacks_expose hm hw (by decide) hug rfl rfl rfl hlong hslot (by decide) _ _ _

end ArduinoT2.Ota
