import ArduinoT2.Lib.BitField
import ArduinoT2.Lib.Nor
import ArduinoT2.Vendor.DrvModel

/-
  The flash driver (vendor/driver/flash/flash.c): the table of chips, the protection bits of
  the status register, sector erase, and reading and writing through 32-byte pages.

  The chip is a status register and a NOR memory. `FlashDev.issue` is the one way to change
  the memory; it also appends the operation, with the protection in force, to `log`. The log
  is not in the source: it records what was erased and programmed and in which order.

  Left out: the busy flags, clocks and line modes (no chip of the table has line mode 4, so
  the mode switches around writes and commands are never taken), and the quad-enable bit.
-/

namespace ArduinoT2.Vendor

/-! ## The table of chips -/

/-- `flash_config_t`: the fields that reading, writing and protecting use. -/
structure FlashConfig where
  flashId : Nat
  srSize : Nat
  flashSize : Nat
  cmpPost : Nat
  protectPost : Nat
  protectMask : BitVec 16
  protectAll : BitVec 16
  protectNone : BitVec 16
  protectHalf : BitVec 16
  unprotectLastBlock : BitVec 16
deriving DecidableEq, Repr

/-- `flash_config`. -/
def flashConfig : List FlashConfig :=
  [⟨0x1C7016, 1, 0x400000,  0, 2, 0x1F, 0x1F, 0x00, 0x16, 0x01B⟩,  -- en_25qh32b
   ⟨0x1C7015, 1, 0x200000,  0, 2, 0x1F, 0x1F, 0x00, 0x0D, 0x0D⟩,   -- en_25qh16b
   ⟨0x0B4014, 2, 0x100000, 14, 2, 0x1F, 0x1F, 0x00, 0x0C, 0x101⟩,  -- xtx_25f08b
   ⟨0x0B4015, 2, 0x200000, 14, 2, 0x1F, 0x1F, 0x00, 0x0D, 0x101⟩,  -- xtx_25f16b
   ⟨0x0B4016, 2, 0x400000, 14, 2, 0x1F, 0x1F, 0x00, 0x0E, 0x101⟩,  -- xtx_25f32b
   ⟨0x0E4016, 2, 0x400000, 14, 2, 0x1F, 0x1F, 0x00, 0x0E, 0x101⟩,  -- xtx_FT25H32
   ⟨0xC84015, 2, 0x200000, 14, 2, 0x1F, 0x1F, 0x00, 0x0D, 0x101⟩,  -- gd_25q16c
   ⟨0xC84016, 2, 0x400000, 14, 2, 0x1F, 0x1F, 0x00, 0x0E, 0x101⟩,  -- gd_25q32c
   ⟨0xC86015, 2, 0x200000, 14, 2, 0x1F, 0x1F, 0x00, 0x0D, 0x101⟩,  -- gd_25w16e
   ⟨0xEF4016, 2, 0x400000, 14, 2, 0x1F, 0x1F, 0x00, 0x00, 0x101⟩,  -- w_25q32(bfj)
   ⟨0x204016, 2, 0x400000, 14, 2, 0x1F, 0x1F, 0x00, 0x0E, 0x101⟩,  -- xmc_25qh32b
   ⟨0xC22315, 1, 0x200000,  0, 2, 0x0F, 0x0F, 0x00, 0x0A, 0x00E⟩,  -- mx_25v16b
   ⟨0xEB6015, 2, 0x200000, 14, 2, 0x1F, 0x1F, 0x00, 0x0D, 0x101⟩]  -- zg_th25q16b

/-- The last row of `flash_config`, used for an unknown chip. -/
def defaultConfig : FlashConfig :=
  ⟨0x000000, 2, 0x400000, 0, 2, 0x1F, 0x00, 0x00, 0x00, 0x000⟩

/-- `flash_get_current_flash_config`: the first row with the chip's id, else the default. -/
def flashGetCurrentFlashConfig (id : Nat) : FlashConfig :=
  (flashConfig.find? fun c => c.flashId == id).getD defaultConfig

/-- `PROTECT_TYPE`. -/
inductive ProtectType where
  | none | all | half | unprotectLastBlock
deriving DecidableEq, Repr

/-- The row's value for a protection type: the bits of the protect field below the
    complement bit, which sits at position 8. -/
def FlashConfig.protectOf (c : FlashConfig) : ProtectType → BitVec 16
  | .none => c.protectNone
  | .all => c.protectAll
  | .half => c.protectHalf
  | .unprotectLastBlock => c.unprotectLastBlock

/-- `protect_xxx & 0xff`. -/
def protectParam (v : BitVec 16) : BitVec 16 := v &&& 0xFF

/-- `(protect_xxx >> 8) & 0xff`. -/
def protectCmp (v : BitVec 16) : BitVec 16 := (v >>> 8) &&& 0xFF

/-! ## The device -/

/-- The flash device: its driver entry, the chip's id, status register and contents, and the
    operations the chip has executed, oldest first, each with the protection then in force. -/
structure FlashDev where
  drv : DrvDev
  flashId : Nat
  sr : BitVec 16
  mem : Nor.Mem
  log : List (Nor.Op × BitVec 16)

/-- `flash_current_config`. -/
def FlashDev.cfg (d : FlashDev) : FlashConfig := flashGetCurrentFlashConfig d.flashId

/-- `flash_read_sr`: one byte, or two on the chips that have a second one. -/
def flashReadSr (width : Nat) (sr : BitVec 16) : BitVec 16 :=
  if width = 2 then sr else sr &&& 0xFF

/-- `flash_write_sr`: as many bytes as the chip's register has. -/
def flashWriteSr (d : FlashDev) (width : Nat) (val : BitVec 16) : FlashDev :=
  if width = 1 then { d with sr := val &&& 0xFF }
  else if width = 2 then { d with sr := val }
  else d

/-- The `value` that `get_flash_protect` reads out of the status register. -/
def FlashDev.protectValue (d : FlashDev) : BitVec 16 :=
  let sr := flashReadSr d.cfg.srSize d.sr
  let param := (sr >>> d.cfg.protectPost) &&& d.cfg.protectMask
  let cmp := (sr >>> d.cfg.cmpPost) &&& 0x01
  (cmp <<< 8) ||| param

/-- `get_flash_protect`; `none` is the `-1` of a register that fits no row value. -/
def getFlashProtect (d : FlashDev) : Option ProtectType :=
  let value := d.protectValue
  if value = d.cfg.protectAll then some .all
  else if value = d.cfg.protectNone then some .none
  else if value = d.cfg.protectHalf then some .half
  else if value = d.cfg.unprotectLastBlock then some .unprotectLastBlock
  else none

/-- `set_flash_protect`: the register is written only when a field differs. -/
def setFlashProtect (d : FlashDev) (type : ProtectType) : FlashDev :=
  let c := d.cfg
  let param := protectParam (c.protectOf type)
  let cmp := protectCmp (c.protectOf type)
  let value := flashReadSr c.srSize d.sr
  if param <<< c.protectPost ≠ value &&& (c.protectMask <<< c.protectPost) ∨
      cmp <<< c.cmpPost ≠ value &&& ((0x01 : BitVec 16) <<< c.cmpPost) then
    let value := (value &&& ~~~(c.protectMask <<< c.protectPost)) ||| (param <<< c.protectPost)
    let value := value &&& ~~~((1 : BitVec 16) <<< c.cmpPost)
    let value := value ||| ((cmp &&& 0x01) <<< c.cmpPost)
    flashWriteSr d c.srSize value
  else d

/-- One operation of the chip. -/
def FlashDev.issue (d : FlashDev) (o : Nor.Op) : FlashDev :=
  { d with mem := o.exec d.mem, log := d.log ++ [(o, d.protectValue)] }

/-- `flash_erase_sector`: the sector of `address`, unless it lies behind the chip. -/
def flashEraseSector (d : FlashDev) (address : Nat) : FlashDev :=
  let eraseAddr := address &&& 0xFFF000
  if d.cfg.flashSize ≤ eraseAddr then d else d.issue (.erase eraseAddr 4096)

/-- The loop of `flash_read_data`: pages of 32 bytes from `addr`, of which the bytes from
    `address` on are handed out. -/
def flashReadLoop (m : Nor.Mem) (addr address len : Nat) : List UInt8 :=
  if len = 0 then []
  else
    let n := min (32 - address % 32) len
    (List.range n).map (fun i => m (addr + address % 32 + i)) ++
      flashReadLoop m (addr + 32) (address + n) (len - n)
termination_by len
decreasing_by omega

/-- `flash_read_data`. -/
def flashReadData (m : Nor.Mem) (address len : Nat) : List UInt8 :=
  flashReadLoop m (address / 32 * 32) address len

/-- The loop of `flash_write_data`: `pb` is the page buffer. A page that the data does not
    fill is read first when the data ends in it; the buffer starts out read when the data
    starts inside the page. -/
def flashWriteLoop (d : FlashDev) (pb : List UInt8) (addr address : Nat) (buffer : List UInt8) :
    FlashDev :=
  if buffer.length = 0 then d
  else
    let pb := if buffer.length < 32 then flashReadData d.mem addr 32 else pb
    let n := min (32 - address % 32) buffer.length
    let pb := pb.take (address % 32) ++ buffer.take n ++ pb.drop (address % 32 + n)
    flashWriteLoop (d.issue (.program addr pb)) (List.replicate 32 0xFF) (addr + 32) (address + n)
      (buffer.drop n)
termination_by buffer.length
decreasing_by
  rw [List.length_drop]
  omega

/-- `flash_write_data`: dropped as a whole unless the range, counted from the page start,
    lies inside the chip. The sum does not wrap: both terms are at most `flash_size`. -/
def flashWriteData (d : FlashDev) (buffer : List UInt8) (address : Nat) : FlashDev :=
  let addr := address / 32 * 32
  let len := buffer.length
  if d.cfg.flashSize ≤ addr ∨ d.cfg.flashSize < len ∨ d.cfg.flashSize < addr + len then d
  else
    let pb := if address % 32 ≠ 0 then flashReadData d.mem addr 32 else List.replicate 32 0xFF
    flashWriteLoop d pb addr address buffer

end ArduinoT2.Vendor
