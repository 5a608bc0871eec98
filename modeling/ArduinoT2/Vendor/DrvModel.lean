import Mathlib.Algebra.Group.Nat.Defs

/-
  The driver table entry of a device (vendor/driver/common/drv_model.c): `ddev_open` and
  `ddev_close` with the state of the entry and its use count.

  Only the entry itself is modelled. The search by name finds it (the device is registered),
  and a handle is the entry's index under a fixed magic word, so every handle that the flash
  adapter passes around denotes this one entry. The flash driver has no `open` and no `close`
  operation.
-/

namespace ArduinoT2.Vendor

/-- `DD_STATE`. -/
inductive DdState where
  | nodevice | closed | opened | break | success
deriving DecidableEq, Repr

/-- `DRV_DEV_S`: the fields `state` and `use_cnt` of an entry of `drv_dev_tbl`. -/
structure DrvDev where
  state : DdState
  useCnt : UInt32
deriving DecidableEq, Repr

/-- `ddev_open`: a closed device is opened with count 0; the count goes up in every state. -/
def ddevOpen (e : DrvDev) : DrvDev :=
  match e.state with
  | .closed => { state := .opened, useCnt := 0 + 1 }
  | _ => { e with useCnt := e.useCnt + 1 }

/-- `ddev_close`: the count goes down, and the device is closed when it reaches 0. -/
def ddevClose (e : DrvDev) : DrvDev :=
  let cnt := e.useCnt - 1
  if cnt = 0 then { state := .closed, useCnt := cnt } else { e with useCnt := cnt }

/-- `n` handles of the device are open. -/
structure DrvDev.InUse (e : DrvDev) (n : Nat) : Prop where
  state : e.state = if n = 0 then .closed else .opened
  useCnt : e.useCnt.toNat = n

theorem ddevOpen_inUse {e : DrvDev} {n : Nat} (h : e.InUse n) (hn : n + 1 < 2 ^ 32) :
    (ddevOpen e).InUse (n + 1) := by
  obtain ⟨hstate, hcnt⟩ := h
  have hnext : (e.useCnt + 1).toNat = n + 1 := by
    rw [UInt32.toNat_add, hcnt]
    exact Nat.mod_eq_of_lt hn
  unfold ddevOpen
  by_cases h0 : n = 0
  · rw [if_pos h0] at hstate
    simp only [hstate]
    exact ⟨rfl, by rw [h0]; rfl⟩
  · rw [if_neg h0] at hstate
    simp only [hstate]
    exact ⟨rfl, hnext⟩

theorem ddevClose_inUse {e : DrvDev} {n : Nat} (h : e.InUse (n + 1)) :
    (ddevClose e).InUse n := by
  obtain ⟨hstate, hcnt⟩ := h
  have hprev : (e.useCnt - 1).toNat = n := by
    rw [UInt32.toNat_sub_of_le _ _ (UInt32.le_iff_toNat_le.mpr (by rw [hcnt]; simp)), hcnt]
    rfl
  have hzero : e.useCnt - 1 = 0 ↔ n = 0 := by
    rw [← UInt32.toNat_inj, hprev]
    rfl
  unfold ddevClose
  dsimp only
  by_cases h0 : n = 0
  · rw [if_pos (hzero.mpr h0)]
    exact ⟨by rw [if_pos h0], hprev⟩
  · rw [if_neg (mt hzero.mp h0)]
    exact ⟨by rw [if_neg h0]; exact hstate, hprev⟩

end ArduinoT2.Vendor
