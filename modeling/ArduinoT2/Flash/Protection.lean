import ArduinoT2.Lib.StepSys
import ArduinoT2.Adapter.TklFlash

/-
  The protection mode across calls of the flash adapter.

  A write and an erase lower the mode when they find `FLASH_PROTECT_ALL`, and neither raises
  it again: the write has no code for it, and the erase samples its flag a second time when
  the mode is already lowered. `protect_final_iff` says when a sequence of calls that starts in
  `FLASH_PROTECT_ALL` ends there: when no call of it lowers the mode, or when the chip's two
  modes are the same register value.
-/

namespace ArduinoT2.Flash

open ArduinoT2.Vendor ArduinoT2.Adapter StepSys

/-- A call of the adapter other than `tkl_flash_set_protect`. -/
inductive FlashCall where
  | read (addr : UInt32) (dst : Option Unit) (size : Nat)
  | write (addr : UInt32) (src : Option (List UInt8))
  | erase (addr size : UInt32)

/-- One call: the device behind it, the return value and the bytes stored to the caller. -/
def flashStep (d : FlashDev) : FlashCall → FlashDev × OperateRet × List UInt8
  | .read addr dst size =>
    let r := tklFlashRead d addr dst size
    (r.2.2, r.1, r.2.1)
  | .write addr src => ((tklFlashWrite d addr src).2, (tklFlashWrite d addr src).1, [])
  | .erase addr size => ((tklFlashErase d addr size).2, (tklFlashErase d addr size).1, [])

/-- The calls that lower the protection: every erase and every write from a buffer. -/
def FlashCall.Lowers : FlashCall → Prop
  | .read _ _ _ => False
  | .write _ src => src.isSome
  | .erase _ _ => True

instance : DecidablePred FlashCall.Lowers
  | .read _ _ _ => inferInstanceAs (Decidable False)
  | .write _ src => inferInstanceAs (Decidable (src.isSome = true))
  | .erase _ _ => inferInstanceAs (Decidable True)

/-! ## One call -/

/-- A call that lowers leaves `lowered` protection behind, the others leave the protection
    alone. -/
theorem flashStep_protect (d : FlashDev) (c : FlashCall) :
    (flashStep d c).1.cfg = d.cfg ∧
      (flashStep d c).1.protectValue = if c.Lowers then lowered d else d.protectValue := by
  cases c with
  | read addr dst size =>
    have h := executes_read d addr dst size 0
    exact ⟨h.cfg, h.protect⟩
  | write addr src =>
    cases src with
    | none => exact ⟨rfl, rfl⟩
    | some src =>
      obtain ⟨ops, h, _⟩ := tklFlashWrite_spec d addr src
      exact ⟨h.cfg, h.protect⟩
  | erase addr size =>
    have h := tklFlashErase_spec d addr size
    exact ⟨h.cfg, h.protect⟩

/-- No call raises a lowered protection. -/
theorem final_of_half {d : FlashDev} (h : d.protectValue = d.cfg.protectHalf)
    (cs : List FlashCall) : (final flashStep d cs).protectValue = d.cfg.protectHalf := by
  induction cs generalizing d with
  | nil => exact h
  | cons c cs ih =>
    obtain ⟨hcfg, hp⟩ := flashStep_protect d c
    have hlow : lowered d = d.cfg.protectHalf := by
      unfold lowered
      rw [h, ite_self]
    rw [final_cons, ← hcfg]
    refine ih ?_
    rw [hp, hcfg, hlow, h, ite_self]

theorem final_cfg (d : FlashDev) (cs : List FlashCall) : (final flashStep d cs).cfg = d.cfg := by
  induction cs generalizing d with
  | nil => rfl
  | cons c cs ih => exact (ih _).trans (flashStep_protect d c).1

/-! ## Sequences of calls -/

theorem final_protectValue {d : FlashDev} (h : d.protectValue = d.cfg.protectAll)
    (cs : List FlashCall) : (final flashStep d cs).protectValue =
      if ∀ c ∈ cs, ¬ c.Lowers then d.cfg.protectAll else d.cfg.protectHalf := by
  induction cs generalizing d with
  | nil => rw [if_pos (by simp)]; exact h
  | cons c cs ih =>
    obtain ⟨hcfg, hp⟩ := flashStep_protect d c
    rw [final_cons]
    rcases Decidable.em c.Lowers with hc | hc
    · have hlow : lowered d = d.cfg.protectHalf := if_pos h
      rw [if_pos hc, hlow, ← hcfg] at hp
      rw [final_of_half hp, hcfg, if_neg fun hall => hall c List.mem_cons_self hc]
    · rw [if_neg hc, h, ← hcfg] at hp
      rw [ih hp, hcfg]
      simp [hc]

/-- A sequence of calls from full protection ends in full protection exactly when none of
    them lowers it, or when half and full protection are one register value. -/
theorem protect_final_iff {d : FlashDev} (h : getFlashProtect d = some .all)
    (cs : List FlashCall) : getFlashProtect (final flashStep d cs) = some .all ↔
      d.cfg.protectHalf = d.cfg.protectAll ∨ ∀ c ∈ cs, ¬ c.Lowers := by
  rw [getFlashProtect_eq_all, final_cfg, final_protectValue ((getFlashProtect_eq_all d).mp h)]
  split
  · exact ⟨fun _ => .inr ‹_›, fun _ => rfl⟩
  · exact ⟨.inl, fun hor => hor.resolve_right ‹_›⟩

theorem protect_final_iff_read :
    getFlashProtect (final flashStep blankFlash [.read 0x12A000 (some ()) 4096]) = some .all :=
  (protect_final_iff blankFlash_protect _).mpr (.inr (by simp [FlashCall.Lowers]))

/-- One write, or one erase, leaves the half protection behind. -/
theorem protect_lowered_blank :
    getFlashProtect blankFlash = some .all ∧
    getFlashProtect (final flashStep blankFlash [.write 0x12A000 (some [0x00])]) = some .half ∧
    getFlashProtect (final flashStep blankFlash [.erase 0x12A000 4096]) = some .half := by
  have hall : blankFlash.protectValue = blankFlash.cfg.protectAll := by decide
  have hhalf : ∀ c : FlashCall, c.Lowers →
      getFlashProtect (final flashStep blankFlash [c]) = some .half := by
    intro c hc
    have hv : (final flashStep blankFlash [c]).protectValue = blankFlash.cfg.protectHalf :=
      (final_protectValue hall [c]).trans (if_neg fun h => h c List.mem_cons_self hc)
    unfold getFlashProtect
    rw [final_cfg, hv]
    decide
  exact ⟨blankFlash_protect, hhalf _ rfl, hhalf _ trivial⟩

end ArduinoT2.Flash
