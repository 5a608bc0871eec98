import ArduinoT2.Flash.Protection

/-
  The use count of the flash device across calls of the flash adapter (tkl_flash.c).

  Every call opens the device and closes it again, and asking for the protection opens it once
  more in between. A write opens it twice and closes it once: `handleStep_inUse` counts one more
  open handle behind a write from a buffer and as many as before behind any other call.

  `useCnt_kept_iff`: each call of a sequence leaves the use count as it finds it if and only if
  none of the calls is such a write.
-/

namespace ArduinoT2.Flash

open ArduinoT2.Vendor ArduinoT2.Adapter StepSys

/-- A call of the flash adapter. -/
inductive HandleCall where
  | setProtect (enable : Bool)
  | call (c : FlashCall)

/-- One call: the device behind it, the return value and the bytes stored to the caller. -/
def handleStep (d : FlashDev) : HandleCall → FlashDev × OperateRet × List UInt8
  | .setProtect enable => ((tklFlashSetProtect d enable).2, (tklFlashSetProtect d enable).1, [])
  | .call c => flashStep d c

/-- The writes from a buffer. -/
def HandleCall.Writes : HandleCall → Prop
  | .call (.write _ src) => src.isSome
  | _ => False

instance : DecidablePred HandleCall.Writes
  | .call (.write _ src) => inferInstanceAs (Decidable (src.isSome = true))
  | .call (.read _ _ _) => inferInstanceAs (Decidable False)
  | .call (.erase _ _) => inferInstanceAs (Decidable False)
  | .setProtect _ => inferInstanceAs (Decidable False)

/-- The call leaves the use count of the device as it finds it. -/
def KeepsUseCnt (d : FlashDev) (c : HandleCall) : Prop :=
  (handleStep d c).1.drv.useCnt = d.drv.useCnt

/-! ## Opening and closing -/

@[simp] theorem drv_flashOpen (d : FlashDev) : (flashOpen d).drv = ddevOpen d.drv := rfl
@[simp] theorem drv_flashClose (d : FlashDev) : (flashClose d).drv = ddevClose d.drv := rfl

@[simp] theorem drv_uniFlashIsProtectAll (d : FlashDev) :
    (uniFlashIsProtectAll d).2.drv = ddevClose (ddevOpen d.drv) := rfl

@[simp] theorem drv_issueAll (d : FlashDev) (ops : List Nor.Op) :
    (d.issueAll ops).drv = d.drv := by rw [issueAll_eq]

@[simp] theorem drv_flashWriteData (d : FlashDev) (buffer : List UInt8) (address : Nat) :
    (flashWriteData d buffer address).drv = d.drv := by
  obtain ⟨ops, hops, -⟩ := flashWriteData_spec d buffer address
  rw [hops, drv_issueAll]

/-- Lowering or raising the protection leaves the driver entry alone. -/
theorem drv_ite_setFlashProtect (d : FlashDev) (b : Bool) (t : ProtectType) :
    (if b then setFlashProtect d t else d).drv = d.drv := by
  cases b
  · rfl
  · exact drv_setFlashProtect d t

theorem drv_tklFlashSetProtect (d : FlashDev) (enable : Bool) :
    (tklFlashSetProtect d enable).2.drv = ddevClose (ddevOpen d.drv) := by
  cases enable <;> simp [tklFlashSetProtect]

/-- Three times opened, two times closed. -/
theorem drv_tklFlashWrite (d : FlashDev) (addr : UInt32) (src : List UInt8) :
    (tklFlashWrite d addr (some src)).2.drv =
      ddevClose (ddevOpen (ddevClose (ddevOpen (ddevOpen d.drv)))) := by
  unfold tklFlashWrite
  dsimp only
  rw [drv_flashClose, drv_flashWriteData, drv_ite_setFlashProtect, drv_flashOpen,
    drv_uniFlashIsProtectAll, drv_flashOpen]

/-- Three times opened, three times closed. -/
theorem drv_tklFlashErase (d : FlashDev) (addr size : UInt32) :
    (tklFlashErase d addr size).2.drv =
      ddevClose (ddevClose (ddevOpen (ddevClose (ddevOpen (ddevOpen d.drv))))) := by
  unfold tklFlashErase
  dsimp only
  rw [drv_flashClose, drv_ite_setFlashProtect, drv_uniFlashIsProtectAll, foldl_flashEraseSector,
    drv_issueAll, drv_ite_setFlashProtect, drv_uniFlashIsProtectAll, drv_flashOpen]

/-! ## One call -/

theorem openClose_inUse {e : DrvDev} {n : Nat} (h : e.InUse n) (hn : n + 1 < 2 ^ 32) :
    (ddevClose (ddevOpen e)).InUse n := ddevClose_inUse (ddevOpen_inUse h hn)

/-- A write leaves one more handle open, no other call does. -/
theorem handleStep_inUse {d : FlashDev} {n : Nat} (h : d.drv.InUse n) (hn : n + 2 < 2 ^ 32)
    (c : HandleCall) :
    (handleStep d c).1.drv.InUse (n + if c.Writes then 1 else 0) := by
  have hopen := ddevOpen_inUse h (by omega)
  have hnested := openClose_inUse hopen (by omega)
  have htwice := openClose_inUse hnested (by omega)
  have hone := openClose_inUse h (by omega)
  cases c with
  | setProtect enable => exact (drv_tklFlashSetProtect d enable).symm ▸ hone
  | call c =>
    cases c with
    | read addr dst size =>
      cases dst with
      | none => exact h
      | some _ => exact hone
    | write addr src =>
      cases src with
      | none => exact h
      | some src => exact (drv_tklFlashWrite d addr src).symm ▸ htwice
    | erase addr size =>
      exact (drv_tklFlashErase d addr size).symm ▸ ddevClose_inUse htwice

theorem keepsUseCnt_iff {d : FlashDev} {n : Nat} (h : d.drv.InUse n) (hn : n + 2 < 2 ^ 32)
    (c : HandleCall) : KeepsUseCnt d c ↔ ¬ c.Writes := by
  have hstep := (handleStep_inUse h hn c).useCnt
  unfold KeepsUseCnt
  rw [← UInt32.toNat_inj, hstep, h.useCnt]
  by_cases hc : c.Writes
  · simp [hc]
  · simp [hc]

/-! ## Sequences of calls -/

/-- Every call of a sequence leaves the use count as it finds it exactly when none of them
    writes from a buffer. -/
theorem useCnt_kept_iff {d : FlashDev} {n : Nat} (h : d.drv.InUse n) (hn : n + 2 < 2 ^ 32)
    (cs : List HandleCall) :
    Along handleStep KeepsUseCnt d cs ↔ ∀ c ∈ cs, ¬ c.Writes := by
  have hinputs : Along handleStep (fun _ c => ¬ c.Writes) d cs ↔ ∀ c ∈ cs, ¬ c.Writes :=
    along_inputs _ d cs
  rw [← hinputs]
  refine along_congr (I := fun d => d.drv.InUse n) ?_ (fun d c h => keepsUseCnt_iff h hn c) h cs
  intro d c hd hc
  have hstep := handleStep_inUse hd hn c
  rwa [if_neg ((keepsUseCnt_iff hd hn c).mp hc)] at hstep

theorem useCnt_kept_erase :
    Along handleStep KeepsUseCnt blankFlash
      [.setProtect false, .call (.read 0x132000 (some ()) 4), .call (.erase 0x132000 0x1000)] :=
  (useCnt_kept_iff (n := 0) ⟨rfl, rfl⟩ (by decide) _).mpr (by simp [HandleCall.Writes])

/-- One write of one byte leaves the closed device open with use count 1. -/
theorem useCnt_write_blank :
    blankFlash.drv = ⟨.closed, 0⟩ ∧
    ¬ Along handleStep KeepsUseCnt blankFlash [.call (.write 0x132000 (some [0x00]))] ∧
    (handleStep blankFlash (.call (.write 0x132000 (some [0x00])))).1.drv = ⟨.opened, 1⟩ := by
  have hdrv : (handleStep blankFlash (.call (.write 0x132000 (some [0x00])))).1.drv =
      ⟨.opened, 1⟩ := by
    rw [handleStep, flashStep, drv_tklFlashWrite]
    decide
  refine ⟨rfl, ?_, hdrv⟩
  intro h
  have hkept := h.1
  unfold KeepsUseCnt at hkept
  rw [hdrv] at hkept
  revert hkept
  decide

end ArduinoT2.Flash
