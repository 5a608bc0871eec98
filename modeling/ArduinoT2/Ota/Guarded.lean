import ArduinoT2.Lib.StepSys
import ArduinoT2.Adapter.TklOta

/-
  What the calls of the update do to the flash.

  Every erase and every write of tkl_ota.c stands between lowering and raising the protection.
  `Guarded P d d'` says that the flash goes from `d` to `d'` by such brackets alone, with every
  operation of the chip satisfying `P`: the operations run under half protection, and a flash
  that was fully protected is so again. One lemma per function shows it for any `P` that the
  operations of its writes and erases satisfy; where the flash may be touched, and with which
  bytes, is a matter of choosing `P`.
-/

namespace ArduinoT2.Ota

open ArduinoT2.Vendor ArduinoT2.Adapter

/-! ## Brackets -/

/-- `d` becomes `d'` by operations that satisfy `P` and run under half protection; full
    protection is kept. -/
structure Guarded (P : Nor.Op → Prop) (d d' : FlashDev) : Prop where
  cfg : d'.cfg = d.cfg
  ops : ∃ ops, (∀ o ∈ ops, P o) ∧ d'.mem = Nor.execAll ops d.mem ∧
    d'.log = d.log ++ ops.map fun o => (o, d.cfg.protectHalf)
  protect : d.protectValue = d.cfg.protectAll → d'.protectValue = d.cfg.protectAll

theorem Guarded.refl (P : Nor.Op → Prop) (d : FlashDev) : Guarded P d d :=
  ⟨rfl, ⟨[], by simp, rfl, by simp⟩, id⟩

theorem Guarded.trans {P : Nor.Op → Prop} {a b c : FlashDev} (h : Guarded P a b)
    (h' : Guarded P b c) : Guarded P a c := by
  obtain ⟨hcfg, ⟨ops, hP, hmem, hlog⟩, hprot⟩ := h
  obtain ⟨hcfg', ⟨ops', hP', hmem', hlog'⟩, hprot'⟩ := h'
  refine ⟨hcfg'.trans hcfg, ⟨ops ++ ops', ?_, ?_, ?_⟩, ?_⟩
  · intro o ho
    rcases List.mem_append.mp ho with ho | ho
    · exact hP o ho
    · exact hP' o ho
  · rw [hmem', hmem, Nor.execAll_append]
  · rw [hlog', hlog, hcfg, List.map_append, List.append_assoc]
  · intro hall
    rw [hprot' (by rw [hprot hall, hcfg]), hcfg]

theorem Guarded.mono {P Q : Nor.Op → Prop} {d d' : FlashDev} (h : Guarded P d d')
    (hPQ : ∀ o, P o → Q o) : Guarded Q d d' := by
  obtain ⟨ops, hP, hmem, hlog⟩ := h.ops
  exact ⟨h.cfg, ⟨ops, fun o ho => hPQ o (hP o ho), hmem, hlog⟩, h.protect⟩

/-- Operations under half protection that end in full protection are a bracket. -/
theorem Guarded.of_executes {P : Nor.Op → Prop} {d d' : FlashDev} {ops : List Nor.Op}
    (h : Executes d ops d.cfg.protectHalf d.cfg.protectAll d') (hP : ∀ o ∈ ops, P o) :
    Guarded P d d' :=
  ⟨h.cfg, ⟨ops, hP, h.mem, h.log⟩, fun _ => h.protect⟩

/-- A device under half protection: writes and erases run under it and leave it. -/
theorem lowered_of_half {d d₁ : FlashDev} {v : BitVec 16}
    (h : Executes d [] v d.cfg.protectHalf d₁) : lowered d₁ = d.cfg.protectHalf := by
  unfold lowered
  rw [h.protect, h.cfg, ite_self]

/-- Lowering, operations under the lowered protection, raising. -/
theorem executes_bracket {d d₁ d₂ : FlashDev} {ops : List Nor.Op}
    (hd₁ : d₁ = (tklFlashSetProtect d false).2)
    (h : Executes d₁ ops d.cfg.protectHalf d.cfg.protectHalf d₂) :
    Executes d ops d.cfg.protectHalf d.cfg.protectAll (tklFlashSetProtect d₂ true).2 := by
  subst hd₁
  have hlow := executes_setProtect d false d.cfg.protectHalf
  have hraise := executes_setProtect d₂ true d.cfg.protectHalf
  have hcfg : d₂.cfg = d.cfg := h.cfg.trans hlow.cfg
  simp only [hcfg, if_true, FlashConfig.protectOf] at hraise
  have hall := (hlow.trans h).trans hraise
  simpa only [List.nil_append, List.append_nil] using hall

/-! ## Writes and erases -/

section Frame

variable (s : Ota) (addr : UInt32) (src : List UInt8) (size : UInt32)

/-- A bracketed write changes the flash and uses up one fate. -/
theorem guardedWrite_frame : (s.guardedWrite addr src).2 =
    { s with flash := (s.guardedWrite addr src).2.flash, writes := s.writes.tail } := by
  unfold Ota.guardedWrite Ota.flashWrite Ota.setProtect
  dsimp only
  split
  · rename_i h
    rw [h]
    rfl
  · rfl

@[simp] theorem ugProc_guardedWrite : (s.guardedWrite addr src).2.ugProc = s.ugProc := by
  rw [guardedWrite_frame]
@[simp] theorem frist_guardedWrite :
    (s.guardedWrite addr src).2.fristBlockDatabuf = s.fristBlockDatabuf := by
  rw [guardedWrite_frame]
@[simp] theorem firstBlock_guardedWrite :
    (s.guardedWrite addr src).2.firstBlock = s.firstBlock := by
  rw [guardedWrite_frame]
@[simp] theorem mallocs_guardedWrite : (s.guardedWrite addr src).2.mallocs = s.mallocs := by
  rw [guardedWrite_frame]
@[simp] theorem writes_guardedWrite :
    (s.guardedWrite addr src).2.writes = s.writes.tail := by
  rw [guardedWrite_frame]
@[simp] theorem lowMem_guardedWrite : (s.guardedWrite addr src).2.lowMem = s.lowMem := by
  rw [guardedWrite_frame]

@[simp] theorem ugProc_guardedErase : (s.guardedErase addr size).ugProc = s.ugProc := by
  simp only [Ota.guardedErase, Ota.setProtect]
@[simp] theorem frist_guardedErase :
    (s.guardedErase addr size).fristBlockDatabuf = s.fristBlockDatabuf := by
  simp only [Ota.guardedErase, Ota.setProtect]
@[simp] theorem firstBlock_guardedErase :
    (s.guardedErase addr size).firstBlock = s.firstBlock := by
  simp only [Ota.guardedErase, Ota.setProtect]
@[simp] theorem mallocs_guardedErase : (s.guardedErase addr size).mallocs = s.mallocs := by
  simp only [Ota.guardedErase, Ota.setProtect]
@[simp] theorem writes_guardedErase : (s.guardedErase addr size).writes = s.writes := by
  simp only [Ota.guardedErase, Ota.setProtect]
@[simp] theorem lowMem_guardedErase : (s.guardedErase addr size).lowMem = s.lowMem := by
  simp only [Ota.guardedErase, Ota.setProtect]

end Frame

/-- The fate of the next flash write. -/
def fate (s : Ota) : WriteFate := s.writes.headD .ok

/-- Some coming flash write fails. -/
def SomeFail (s : Ota) : Prop := ∃ f ∈ s.writes, f ≠ .ok

theorem someFail_of_fate {s : Ota} (h : fate s ≠ .ok) : SomeFail s := by
  unfold fate at h
  unfold SomeFail
  cases hw : s.writes with
  | nil =>
    rw [hw] at h
    exact absurd rfl h
  | cons f fs =>
    rw [hw] at h
    exact ⟨f, List.mem_cons_self, h⟩

theorem SomeFail.of_suffix {s s' : Ota} (h : SomeFail s') (hw : s'.writes <:+ s.writes) :
    SomeFail s := by
  obtain ⟨f, hf, hne⟩ := h
  exact ⟨f, hw.subset hf, hne⟩

/-- The operation lies between the page of the first and the page of the last of `len` bytes
    at `addr`. -/
def WriteFoot (addr len : Nat) (o : Nor.Op) : Prop :=
  addr / 32 * 32 ≤ o.addr ∧ o.addr + o.len ≤ (addr + len + 31) / 32 * 32

/-- The operation programs nothing but `0xFF`. -/
def Blank (o : Nor.Op) : Prop := ∃ a bs, o = .program a bs ∧ ∀ b ∈ bs, b = 0xFF

/-- The bytes that a failing write programs. -/
def partOf (src mask : List UInt8) : List UInt8 := List.zipWith (fun b m => b ||| m) src mask

/-- What is known of a bracketed write: its operations, which bytes they program, and what
    else the call changes. -/
structure GuardedWrite (s : Ota) (addr : UInt32) (src : List UInt8) (ops : List Nor.Op)
    (r : OperateRet × Ota) : Prop where
  executes : Executes s.flash ops s.flash.cfg.protectHalf s.flash.cfg.protectAll r.2.flash
  foot : ∀ o ∈ ops, WriteFoot addr.toNat src.length o
  blank : ∀ k, addr.toNat % 32 = 0 → src = List.replicate (32 * k) 0xFF → ∀ o ∈ ops, Blank o
  ok : fate s = .ok → r.1 = oprtOk ∧ WriteOps s.flash addr.toNat src ops
  fail : ∀ mask, fate s = .fail mask →
    r.1 = oprtComError ∧ ops = [.program addr.toNat (partOf src mask)]

/-- Bytes that are all `0xFF` stay so under a mask of bits left out. -/
theorem partOf_ff (n : Nat) (mask : List UInt8) :
    ∀ b ∈ partOf (List.replicate n 0xFF) mask, b = (0xFF : UInt8) := by
  intro b hb
  unfold partOf at hb
  obtain ⟨i, hi, rfl⟩ := List.mem_iff_getElem.mp hb
  rw [List.getElem_zipWith, List.getElem_replicate]
  exact UInt8.neg_one_or

theorem pages_ff (n addr k : Nat) : ∀ o ∈ Nor.pages 32 addr (List.replicate n 0xFF) k,
    Blank o := by
  intro o ho
  obtain ⟨j, _, rfl⟩ := Nor.mem_pages ho
  exact ⟨_, _, rfl,
    fun b hb => List.eq_of_mem_replicate (List.mem_of_mem_drop (List.mem_of_mem_take hb))⟩

theorem guardedWrite_spec (s : Ota) (addr : UInt32) (src : List UInt8) :
    ∃ ops, GuardedWrite s addr src ops (s.guardedWrite addr src) := by
  have hlow := executes_setProtect s.flash false s.flash.cfg.protectHalf
  generalize hd₁ : (tklFlashSetProtect s.flash false).2 = d₁ at hlow
  have hhalf : lowered d₁ = s.flash.cfg.protectHalf := lowered_of_half hlow
  have hok : ∀ fates, (s.writes = fates ∧ fates.headD .ok = .ok) →
      ∃ ops, GuardedWrite s addr src ops (oprtOk, { s with
        flash := (tklFlashSetProtect (tklFlashWrite d₁ addr (some src)).2 true).2,
        writes := fates.tail }) := by
    rintro fates ⟨rfl, hfate⟩
    obtain ⟨ops, hex, hw⟩ := tklFlashWrite_spec d₁ addr src
    rw [hhalf] at hex
    have hw' := hw.congr hlow.cfg hlow.mem
    refine ⟨ops, executes_bracket hd₁.symm hex, hw.foot, ?_, fun _ => ⟨rfl, hw'⟩, ?_⟩
    · rintro k haddr rfl o ho
      rw [hw'.pages k haddr List.length_replicate] at ho
      split at ho
      · exact pages_ff _ _ _ o ho
      · cases ho
    · intro mask hfail
      unfold fate at hfail
      rw [hfate] at hfail
      cases hfail
  unfold Ota.guardedWrite Ota.flashWrite Ota.setProtect
  dsimp only
  rw [hd₁]
  cases hfates : s.writes with
  | nil => exact hok [] ⟨hfates, rfl⟩
  | cons f fates =>
    cases f with
    | ok => exact hok _ ⟨hfates, rfl⟩
    | fail mask =>
      have hfate : fate s = .fail mask := by
        unfold fate
        rw [hfates]
        rfl
      refine ⟨[.program addr.toNat (partOf src mask)], ?_, ?_, ?_, ?_, ?_⟩
      · have hex := executes_issueAll d₁ [.program addr.toNat (partOf src mask)]
        rw [hlow.protect] at hex
        exact executes_bracket hd₁.symm hex
      · simp only [List.mem_singleton, forall_eq, WriteFoot, partOf, Nor.Op.addr, Nor.Op.len,
          List.length_zipWith]
        omega
      · rintro k haddr rfl o ho
        rw [List.mem_singleton] at ho
        exact ⟨_, _, ho, partOf_ff _ _⟩
      · intro h
        rw [hfate] at h
        cases h
      · intro mask' h
        rw [hfate] at h
        cases h
        exact ⟨rfl, rfl⟩

/-- A bracketed write that is not reported as done has failed. -/
theorem fate_of_guardedWrite {s : Ota} {addr : UInt32} {src : List UInt8}
    (h : (s.guardedWrite addr src).1 ≠ oprtOk) : fate s ≠ .ok := by
  obtain ⟨ops, hw⟩ := guardedWrite_spec s addr src
  exact fun hok => h (hw.ok hok).1

/-- The operations of a bracketed write stay with the bytes, and are blank for dummy data. -/
theorem guardedWrite_guarded (s : Ota) (addr : UInt32) (src : List UInt8) :
    Guarded (fun o => WriteFoot addr.toNat src.length o ∧
        ∀ k, addr.toNat % 32 = 0 → src = List.replicate (32 * k) 0xFF → Blank o)
      s.flash (s.guardedWrite addr src).2.flash := by
  obtain ⟨ops, h⟩ := guardedWrite_spec s addr src
  exact .of_executes h.executes fun o ho =>
    ⟨h.foot o ho, fun k haddr hsrc => h.blank k haddr hsrc o ho⟩

theorem getD_partOf (src mask : List UInt8) (i : Nat) :
    (partOf src mask).getD i 0xFF = match mask[i]? with
      | some m => src.getD i 0xFF ||| m
      | none => 0xFF := by
  simp only [partOf, List.getD_eq_getElem?_getD, List.getElem?_zipWith]
  cases src[i]? with
  | none =>
    cases mask[i]? with
    | none => rfl
    | some m => exact (UInt8.neg_one_or (a := m)).symm
  | some b => cases mask[i]? <;> rfl

/-- Return value and contents behind a bracketed write depend on the contents, the chip, the
    bytes and the coming failures only, each byte on what is there and what is written there. -/
theorem guardedWrite_agree {R : Nat → Prop} {s t : Ota} (hcfg : s.flash.cfg = t.flash.cfg)
    (hmem : Nor.AgreeOn R s.flash.mem t.flash.mem) (hwrites : s.writes = t.writes) (addr : UInt32)
    {src src' : List UInt8} (hlen : src.length = src'.length)
    (hsrc : Nor.BytesAgree R addr.toNat src src') :
    (s.guardedWrite addr src).1 = (t.guardedWrite addr src').1 ∧
      Nor.AgreeOn R (s.guardedWrite addr src).2.flash.mem
        (t.guardedWrite addr src').2.flash.mem := by
  obtain ⟨ops, hs⟩ := guardedWrite_spec s addr src
  obtain ⟨ops', ht⟩ := guardedWrite_spec t addr src'
  have hfate : fate s = fate t := by
    unfold fate
    rw [hwrites]
  rw [hs.executes.mem, ht.executes.mem]
  cases hf : fate t with
  | ok =>
    obtain ⟨hrc, hw⟩ := hs.ok (hfate.trans hf)
    obtain ⟨hrc', hw'⟩ := ht.ok hf
    have hin : s.flash.InRange addr.toNat src.length ↔ t.flash.InRange addr.toNat src'.length := by
      unfold FlashDev.InRange
      rw [hcfg, hlen]
    refine ⟨hrc.trans hrc'.symm, ?_⟩
    rw [hw.effect, hw'.effect, if_congr hin rfl rfl]
    split
    · exact hmem.program hsrc
    · exact hmem
  | fail mask =>
    obtain ⟨hrc, hops⟩ := hs.fail mask (hfate.trans hf)
    obtain ⟨hrc', hops'⟩ := ht.fail mask hf
    rw [hops, hops']
    refine ⟨hrc.trans hrc'.symm, hmem.program fun i hi => ?_⟩
    rw [getD_partOf, getD_partOf, hsrc i hi]

/-- A bracketed erase: its operations are those of `tkl_flash_erase`. -/
theorem guardedErase_spec (s : Ota) (addr size : UInt32) :
    Executes s.flash (eraseOps s.flash.cfg addr size) s.flash.cfg.protectHalf
      s.flash.cfg.protectAll (s.guardedErase addr size).flash := by
  have hlow := executes_setProtect s.flash false s.flash.cfg.protectHalf
  have hex := tklFlashErase_spec (tklFlashSetProtect s.flash false).2 addr size
  rw [lowered_of_half hlow, hlow.cfg] at hex
  exact executes_bracket rfl hex

theorem guardedErase_guarded (s : Ota) (addr size : UInt32) :
    Guarded (fun o => o ∈ eraseOps s.flash.cfg addr size) s.flash
      (s.guardedErase addr size).flash :=
  .of_executes (guardedErase_spec s addr size) fun _ ho => ho

end ArduinoT2.Ota
