import ArduinoT2.Adapter.ErrorCode
import ArduinoT2.Vendor.FlashSpec

/-
  The flash adapter (TuyaOS/adapter/src/driver/tkl_flash.c) over the flash driver.

  A buffer pointer is an `Option`: `none` is NULL, and a non-NULL source holds exactly the
  bytes that the size argument counts. The mutex around each call is not modelled: calls run
  one after the other.

  `lowered` is the protection under which `tklFlashWrite` and `tklFlashErase` run and which
  both of them leave behind (`tklFlashWrite_spec`, `tklFlashErase_spec`).
-/

namespace ArduinoT2.Adapter

open ArduinoT2.Vendor

/-- `PARTITION_SIZE`. -/
def partitionSize : Nat := 1 <<< 12

/-- `ddev_open(FLASH_DEV_NAME, …)`. -/
def flashOpen (d : FlashDev) : FlashDev := { d with drv := ddevOpen d.drv }

/-- `ddev_close(flash_handle)`. -/
def flashClose (d : FlashDev) : FlashDev := { d with drv := ddevClose d.drv }

/-- `tkl_flash_set_protect`. -/
def tklFlashSetProtect (d : FlashDev) (enable : Bool) : OperateRet × FlashDev :=
  let d := flashOpen d
  let d := if enable then setFlashProtect d .all else setFlashProtect d .half
  (oprtOk, flashClose d)

/-- `tkl_flash_read`: the return value, what is stored to `dst`, the device. -/
def tklFlashRead (d : FlashDev) (addr : UInt32) (dst : Option Unit) (size : Nat) :
    OperateRet × List UInt8 × FlashDev :=
  match dst with
  | none => (oprtInvalidParm, [], d)
  | some () =>
    let d := flashOpen d
    (oprtOk, flashReadData d.mem addr.toNat size, flashClose d)

/-- `__uni_flash_is_protect_all`. -/
def uniFlashIsProtectAll (d : FlashDev) : Bool × FlashDev :=
  let d := flashOpen d
  (decide (getFlashProtect d = some .all), flashClose d)

/-- `tkl_flash_write`. The handle is opened twice and closed once, and a lowered protection
    is not raised again. -/
def tklFlashWrite (d : FlashDev) (addr : UInt32) (src : Option (List UInt8)) :
    OperateRet × FlashDev :=
  match src with
  | none => (oprtInvalidParm, d)
  | some src =>
    let d := flashOpen d
    let protectFlag := uniFlashIsProtectAll d
    let d := flashOpen protectFlag.2
    let d := if protectFlag.1 then setFlashProtect d .half else d
    let d := flashWriteData d src addr.toNat
    (oprtOk, flashClose d)

/-- `start_sec` and `end_sec` of `tkl_flash_erase`, cut to `unsigned short`. -/
def startSec (addr : UInt32) : Nat := (addr / 4096).toUInt16.toNat

def endSec (addr size : UInt32) : Nat := ((addr + size - 1) / 4096).toUInt16.toNat

/-- `tkl_flash_erase`. The flag is sampled again behind the loop, when the protection is
    already lowered. -/
def tklFlashErase (d : FlashDev) (addr size : UInt32) : OperateRet × FlashDev :=
  let d := flashOpen d
  let protectFlag := uniFlashIsProtectAll d
  let d := if protectFlag.1 then setFlashProtect protectFlag.2 .half else protectFlag.2
  let d := (List.range' (startSec addr) (endSec addr size + 1 - startSec addr)).foldl
    (fun d i => flashEraseSector d (partitionSize * i)) d
  let protectFlag := uniFlashIsProtectAll d
  let d := if protectFlag.1 then setFlashProtect protectFlag.2 .all else protectFlag.2
  (oprtOk, flashClose d)

/-- A fully protected and erased gd_25q16c, not opened. -/
def blankFlash : FlashDev where
  drv := ⟨.closed, 0⟩
  flashId := 0xC84015
  sr := 0x7C
  mem := fun _ => 0xFF
  log := []

theorem blankFlash_protect : getFlashProtect blankFlash = some .all := by decide

/-! ## What a call does -/

@[simp] theorem cfg_flashOpen (d : FlashDev) : (flashOpen d).cfg = d.cfg := rfl
@[simp] theorem mem_flashOpen (d : FlashDev) : (flashOpen d).mem = d.mem := rfl
@[simp] theorem log_flashOpen (d : FlashDev) : (flashOpen d).log = d.log := rfl
@[simp] theorem protectValue_flashOpen (d : FlashDev) :
    (flashOpen d).protectValue = d.protectValue := rfl
@[simp] theorem cfg_flashClose (d : FlashDev) : (flashClose d).cfg = d.cfg := rfl
@[simp] theorem mem_flashClose (d : FlashDev) : (flashClose d).mem = d.mem := rfl
@[simp] theorem log_flashClose (d : FlashDev) : (flashClose d).log = d.log := rfl
@[simp] theorem protectValue_flashClose (d : FlashDev) :
    (flashClose d).protectValue = d.protectValue := rfl

/-- `d'` is `d` after the chip has executed `ops` under protection `v`, with protection `v'`
    in force at the end. -/
structure Executes (d : FlashDev) (ops : List Nor.Op) (v v' : BitVec 16) (d' : FlashDev) :
    Prop where
  cfg : d'.cfg = d.cfg
  mem : d'.mem = Nor.execAll ops d.mem
  log : d'.log = d.log ++ ops.map fun o => (o, v)
  protect : d'.protectValue = v'

section Entry

variable {d d' : FlashDev} {ops : List Nor.Op} {v v' : BitVec 16}

/-- Opening, closing and sampling the protection only change the driver entry. -/
theorem Executes.opened (h : Executes d ops v v' d') : Executes d ops v v' (flashOpen d') :=
  ⟨h.cfg, h.mem, h.log, h.protect⟩

theorem Executes.closed (h : Executes d ops v v' d') : Executes d ops v v' (flashClose d') :=
  ⟨h.cfg, h.mem, h.log, h.protect⟩

theorem Executes.sampled (h : Executes d ops v v' d') :
    Executes d ops v v' (uniFlashIsProtectAll d').2 := h.opened.closed

end Entry

theorem executes_refl (d : FlashDev) (v : BitVec 16) : Executes d [] v d.protectValue d :=
  ⟨rfl, rfl, (List.append_nil _).symm, rfl⟩

theorem executes_issueAll (d : FlashDev) (ops : List Nor.Op) :
    Executes d ops d.protectValue d.protectValue (d.issueAll ops) := by
  rw [issueAll_eq]
  exact ⟨rfl, rfl, rfl, rfl⟩

theorem Executes.trans {d d' d'' : FlashDev} {ops ops' : List Nor.Op} {v v' v'' : BitVec 16}
    (h : Executes d ops v v' d') (h' : Executes d' ops' v v'' d'') :
    Executes d (ops ++ ops') v v'' d'' where
  cfg := h'.cfg.trans h.cfg
  mem := by rw [h'.mem, h.mem, Nor.execAll_append]
  log := by rw [h'.log, h.log, List.map_append, List.append_assoc]
  protect := h'.protect

theorem executes_setFlashProtect (d : FlashDev) (t : ProtectType) (v : BitVec 16) :
    Executes d [] v (d.cfg.protectOf t) (setFlashProtect d t) :=
  ⟨cfg_setFlashProtect d t, mem_setFlashProtect d t,
    (log_setFlashProtect d t).trans (List.append_nil _).symm, protectValue_setFlashProtect d t⟩

theorem executes_setProtect (d : FlashDev) (enable : Bool) (v : BitVec 16) :
    Executes d [] v (d.cfg.protectOf (if enable then .all else .half))
      (tklFlashSetProtect d enable).2 := by
  have hset (t : ProtectType) := (executes_refl d v).opened.trans
    (executes_setFlashProtect (flashOpen d) t v)
  cases enable with
  | true => exact (hset .all).closed
  | false => exact (hset .half).closed

theorem executes_read (d : FlashDev) (addr : UInt32) (dst : Option Unit) (size : Nat)
    (v : BitVec 16) : Executes d [] v d.protectValue (tklFlashRead d addr dst size).2.2 := by
  cases dst with
  | none => exact executes_refl d v
  | some _ => exact (executes_refl d v).opened.closed

/-- The bytes that a read delivers. -/
theorem tklFlashRead_bytes (d : FlashDev) (addr : UInt32) (size : Nat) :
    (tklFlashRead d addr (some ()) size).2.1 = Nor.read d.mem addr.toNat size := by
  simp [tklFlashRead, flashReadData_eq]

/-- The protection under which a write or an erase runs: `FLASH_PROTECT_HALF` when it finds
    `FLASH_PROTECT_ALL`, else what it finds. -/
def lowered (d : FlashDev) : BitVec 16 :=
  if d.protectValue = d.cfg.protectAll then d.cfg.protectHalf else d.protectValue

theorem getFlashProtect_eq_all (d : FlashDev) :
    getFlashProtect d = some .all ↔ d.protectValue = d.cfg.protectAll := by
  unfold getFlashProtect
  dsimp only
  by_cases h : d.protectValue = d.cfg.protectAll
  · rw [if_pos h]
    exact ⟨fun _ => h, fun _ => rfl⟩
  · rw [if_neg h]
    refine ⟨fun hc => ?_, fun hc => absurd hc h⟩
    (repeat' split at hc) <;> cases hc

theorem uniFlashIsProtectAll_fst (d : FlashDev) :
    (uniFlashIsProtectAll d).1 = decide (d.protectValue = d.cfg.protectAll) := by
  simp only [uniFlashIsProtectAll, getFlashProtect_eq_all, protectValue_flashOpen, cfg_flashOpen]

/-- Sampling the protection of `d` and lowering it where it is full, on a device `d₁` that
    differs from `d` in its driver entry only. -/
theorem executes_lower {d d₁ : FlashDev} (h : Executes d [] (lowered d) d.protectValue d₁) :
    Executes d [] (lowered d) (lowered d)
      (if (uniFlashIsProtectAll (flashOpen d)).1 then setFlashProtect d₁ .half else d₁) := by
  rw [uniFlashIsProtectAll_fst, protectValue_flashOpen, cfg_flashOpen]
  by_cases hall : d.protectValue = d.cfg.protectAll
  · have hlow : lowered d = d.cfg.protectHalf := if_pos hall
    have hset := h.trans (executes_setFlashProtect d₁ .half (lowered d))
    rw [h.cfg, FlashConfig.protectOf, ← hlow] at hset
    rw [if_pos (decide_eq_true hall)]
    exact hset
  · have hlow : lowered d = d.protectValue := if_neg hall
    rw [if_neg (by simp [hall]), hlow]
    exact hlow ▸ h

/-- A write through a non-NULL pointer runs under `lowered` protection and leaves it so. Its
    operations are those of `flash_write_data`. -/
theorem tklFlashWrite_spec (d : FlashDev) (addr : UInt32) (src : List UInt8) :
    ∃ ops, Executes d ops (lowered d) (lowered d) (tklFlashWrite d addr (some src)).2 ∧
      WriteOps d addr.toNat src ops := by
  have hlow := executes_lower (executes_refl d (lowered d)).opened.sampled.opened
  simp only [tklFlashWrite]
  generalize (if (uniFlashIsProtectAll (flashOpen d)).1 then _ else _) = d₁ at hlow ⊢
  obtain ⟨ops, hops, hw⟩ := flashWriteData_spec d₁ src addr.toNat
  have hex := hlow.trans (hlow.protect ▸ executes_issueAll d₁ ops)
  refine ⟨ops, ?_, hw.congr hlow.cfg hlow.mem⟩
  rw [hops]
  exact hex.closed

/-- The operations of `tkl_flash_erase`. -/
def eraseOps (c : FlashConfig) (addr size : UInt32) : List Nor.Op :=
  (List.range' (startSec addr) (endSec addr size + 1 - startSec addr)).flatMap
    fun i => eraseOp c (partitionSize * i)

theorem mem_eraseOps {c : FlashConfig} {addr size : UInt32} {o : Nor.Op}
    (hend : endSec addr size < 4096) (h : o ∈ eraseOps c addr size) :
    ∃ i, startSec addr ≤ i ∧ i ≤ endSec addr size ∧ o = .erase (4096 * i) 4096 := by
  obtain ⟨i, hi, ho⟩ := List.mem_flatMap.mp h
  rw [List.mem_range'_1] at hi
  exact ⟨i, hi.1, by omega, mem_eraseOp (by omega) ho⟩

/-- An erase runs under `lowered` protection and leaves it so: the second sample finds full
    protection only on a chip whose half protection is full protection. -/
theorem tklFlashErase_spec (d : FlashDev) (addr size : UInt32) :
    Executes d (eraseOps d.cfg addr size) (lowered d) (lowered d)
      (tklFlashErase d addr size).2 := by
  have hlow := executes_lower (executes_refl d (lowered d)).opened.sampled
  simp only [tklFlashErase]
  generalize (if (uniFlashIsProtectAll (flashOpen d)).1 then _ else _) = d₁ at hlow ⊢
  rw [foldl_flashEraseSector, hlow.cfg]
  have hex := hlow.trans (hlow.protect ▸ executes_issueAll d₁ (eraseOps d.cfg addr size))
  rw [← eraseOps]
  generalize d₁.issueAll (eraseOps d.cfg addr size) = d₂ at hex ⊢
  rw [uniFlashIsProtectAll_fst, hex.protect, hex.cfg]
  by_cases hall : lowered d = d.cfg.protectAll
  · have hset := hex.sampled.trans (executes_setFlashProtect _ .all (lowered d))
    rw [List.append_nil, hex.sampled.cfg, FlashConfig.protectOf, ← hall] at hset
    rw [if_pos (decide_eq_true hall)]
    exact hset.closed
  · rw [if_neg (by simp [hall])]
    exact hex.sampled.closed

/-- An erase of a non-empty range inside the chip erases the sectors from that of its first
    byte to that of its last one. -/
theorem eraseOps_eq_sectors {d : FlashDev} {addr size : UInt32} (hs : 0 < size.toNat)
    (h : addr.toNat + size.toNat ≤ d.cfg.flashSize) :
    eraseOps d.cfg addr size = Nor.sectors 4096 (addr.toNat / 4096)
      ((addr.toNat + size.toNat - 1) / 4096 + 1 - addr.toNat / 4096) := by
  have hsz := flashSize_le d
  have hstart : startSec addr = addr.toNat / 4096 := by
    simp [startSec]
    omega
  have hend : endSec addr size = (addr.toNat + size.toNat - 1) / 4096 := by
    simp [endSec, UInt32.toNat_sub, UInt32.toNat_add]
    omega
  rw [eraseOps, hstart, hend, Nor.sectors, List.map_eq_flatMap]
  refine List.flatMap_congr fun i hi => ?_
  rw [List.mem_range'_1] at hi
  exact eraseOp_of_lt hsz (by omega)

end ArduinoT2.Adapter
