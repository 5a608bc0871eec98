import ArduinoT2.Adapter.TklFlash
import Mathlib.Data.List.Nodup

/-
  The sectors that `tkl_flash_erase` (tkl_flash.c) passes to `CMD_FLASH_ERASE_SECTOR`.

  `eraseSectorLoop` is the loop of the call with its own types: the index is an `unsigned int`,
  the two sector numbers are cut to an `unsigned short`. What the chip does is what the driver
  makes of these addresses (`eraseOps_eq_sectorAddrs`, with `tklFlashErase_spec`).

  `erase_range_iff`: the sectors are those of the range exactly when the range is not empty and
  lies below 2^28, or is empty and starts at a sector whose number does not become 0 when it is
  cut. An empty range has its last byte before its first one, which is in the same sector if the
  address is not aligned.
-/

namespace ArduinoT2.Flash

open ArduinoT2.Vendor ArduinoT2.Adapter

/-- The loop of `tkl_flash_erase` from the index `i` on: the values of `sector_addr`. -/
def eraseSectorLoop (endSec : UInt16) (i : UInt32) : List UInt32 :=
  if i.toNat ≤ endSec.toNat then 4096 * i :: eraseSectorLoop endSec (i + 1) else []
termination_by endSec.toNat + 1 - i.toNat
decreasing_by
  have hend := endSec.toNat_lt
  have hnext : (i + 1).toNat = i.toNat + 1 := by
    rw [UInt32.toNat_add]
    exact Nat.mod_eq_of_lt (show i.toNat + 1 < 2 ^ 32 by omega)
  omega

/-- What `tkl_flash_erase` passes to `CMD_FLASH_ERASE_SECTOR`, in this order. -/
def sectorAddrs (addr size : UInt32) : List UInt32 :=
  eraseSectorLoop ((addr + size - 1) / 4096).toUInt16 (addr / 4096).toUInt16.toUInt32

/-- The sectors of the bytes from `addr` on are erased, each of them once, and no other one. -/
def ErasesRange (addr size : UInt32) : Prop :=
  (sectorAddrs addr size).Nodup ∧ ∀ a : UInt32, a ∈ sectorAddrs addr size ↔
    ∃ b, addr.toNat ≤ b ∧ b < addr.toNat + size.toNat ∧ a.toNat = b / 4096 * 4096

/-- Where the call does so. -/
def EraseMeets (addr size : UInt32) : Prop :=
  if size.toNat = 0 then addr.toNat % 4096 = 0 ∧ addr.toNat % 2 ^ 28 ≠ 0
  else addr.toNat + size.toNat ≤ 2 ^ 28

/-! ## The loop -/

theorem eraseSectorLoop_eq (endSec : UInt16) (n : Nat) :
    ∀ i : UInt32, endSec.toNat + 1 - i.toNat = n → eraseSectorLoop endSec i =
      (List.range' i.toNat n).map fun k => UInt32.ofNat (4096 * k) := by
  have hend := endSec.toNat_lt
  induction n with
  | zero =>
    intro i hi
    rw [eraseSectorLoop, if_neg (by omega)]
    rfl
  | succ n ih =>
    intro i hi
    have hnext : (i + 1).toNat = i.toNat + 1 := by
      rw [UInt32.toNat_add]
      exact Nat.mod_eq_of_lt (show i.toNat + 1 < 2 ^ 32 by omega)
    have hmul : 4096 * i = UInt32.ofNat (4096 * i.toNat) := by
      rw [UInt32.ofNat_mul, UInt32.ofNat_toNat]
      rfl
    rw [eraseSectorLoop, if_pos (by omega), ih (i + 1) (by omega), hnext, List.range'_succ,
      List.map_cons, hmul]

/-- The addresses are those of the sectors from `start_sec` to `end_sec`. -/
theorem sectorAddrs_eq (addr size : UInt32) : sectorAddrs addr size =
    (List.range' (startSec addr) (endSec addr size + 1 - startSec addr)).map
      fun k => UInt32.ofNat (4096 * k) := by
  have hstart : (addr / 4096).toUInt16.toUInt32.toNat = startSec addr := UInt16.toNat_toUInt32 _
  unfold sectorAddrs
  rw [eraseSectorLoop_eq _ _ _ rfl, hstart]
  rfl

theorem endSec_lt (addr size : UInt32) : endSec addr size < 65536 := UInt16.toNat_lt _

/-- The address of a sector whose number has 16 bits. -/
theorem sectorAddr_toNat {k : Nat} (h : k < 65536) : (UInt32.ofNat (4096 * k)).toNat = 4096 * k :=
  UInt32.toNat_ofNat_of_lt' (show 4096 * k < 2 ^ 32 by omega)

theorem mem_sectorAddrs {addr size a : UInt32} : a ∈ sectorAddrs addr size ↔
    ∃ k, startSec addr ≤ k ∧ k ≤ endSec addr size ∧ a.toNat = 4096 * k := by
  have hend := endSec_lt addr size
  rw [sectorAddrs_eq, List.mem_map]
  constructor
  · rintro ⟨k, hk, rfl⟩
    rw [List.mem_range'_1] at hk
    exact ⟨k, hk.1, by omega, sectorAddr_toNat (by omega)⟩
  · rintro ⟨k, hstart, hle, ha⟩
    refine ⟨k, List.mem_range'_1.mpr (by omega), ?_⟩
    exact UInt32.toNat_inj.mp ((sectorAddr_toNat (by omega)).trans ha.symm)

theorem nodup_sectorAddrs (addr size : UInt32) : (sectorAddrs addr size).Nodup := by
  have hend := endSec_lt addr size
  rw [sectorAddrs_eq]
  refine List.Nodup.map_on ?_ List.nodup_range'
  intro i hi j hj heq
  rw [List.mem_range'_1] at hi hj
  have hnat := congrArg UInt32.toNat heq
  rw [sectorAddr_toNat (by omega), sectorAddr_toNat (by omega)] at hnat
  omega

/-- The operations of an erase are what the driver makes of each address. -/
theorem eraseOps_eq_sectorAddrs (c : FlashConfig) (addr size : UInt32) :
    eraseOps c addr size = (sectorAddrs addr size).flatMap fun a => eraseOp c a.toNat := by
  have hend := endSec_lt addr size
  rw [sectorAddrs_eq, List.flatMap_map, eraseOps]
  refine List.flatMap_congr fun k hk => ?_
  rw [List.mem_range'_1] at hk
  rw [sectorAddr_toNat (by omega)]
  rfl

/-! ## The range -/

theorem startSec_eq (addr : UInt32) : startSec addr = addr.toNat / 4096 % 65536 := by
  unfold startSec
  rw [UInt32.toNat_toUInt16, UInt32.toNat_div]
  rfl

/-- The last sector of a range that is not empty. -/
theorem endSec_eq {addr size : UInt32} (hfit : addr.toNat + size.toNat ≤ 2 ^ 32)
    (hsize : 0 < size.toNat) :
    endSec addr size = (addr.toNat + size.toNat - 1) / 4096 % 65536 := by
  have hlast : (addr + size - 1).toNat = addr.toNat + size.toNat - 1 := by
    simp only [UInt32.toNat_sub, UInt32.toNat_add, UInt32.toNat_one]
    omega
  unfold endSec
  rw [UInt32.toNat_toUInt16, UInt32.toNat_div, hlast]
  rfl

/-- The byte before an empty range, or the last byte of all. -/
theorem endSec_empty {addr size : UInt32} (hsize : size.toNat = 0) :
    endSec addr size = (addr.toNat + (2 ^ 32 - 1)) % 2 ^ 32 / 4096 % 65536 := by
  have hlt := addr.toNat_lt
  have hlast : (addr + size - 1).toNat = (addr.toNat + (2 ^ 32 - 1)) % 2 ^ 32 := by
    simp only [UInt32.toNat_sub, UInt32.toNat_add, UInt32.toNat_one, hsize]
    omega
  unfold endSec
  rw [UInt32.toNat_toUInt16, UInt32.toNat_div, hlast]
  rfl

/-- The sectors of a range that is not empty. -/
theorem mem_range_sectors {first size k : Nat} (hsize : 0 < size) :
    (∃ b, first ≤ b ∧ b < first + size ∧ 4096 * k = b / 4096 * 4096) ↔
      first / 4096 ≤ k ∧ k ≤ (first + size - 1) / 4096 := by
  constructor
  · rintro ⟨b, hle, hlt, hk⟩
    omega
  · rintro ⟨hle, hge⟩
    by_cases hfirst : k = first / 4096
    · exact ⟨first, le_refl _, by omega, by omega⟩
    · exact ⟨4096 * k, by omega, by omega, by omega⟩

theorem erasesRange_empty {addr size : UInt32} (hsize : size.toNat = 0) :
    ErasesRange addr size ↔ endSec addr size < startSec addr := by
  constructor
  · rintro ⟨-, hmem⟩
    by_contra hle
    have hlt := endSec_lt addr size
    have hfirst : UInt32.ofNat (4096 * startSec addr) ∈ sectorAddrs addr size :=
      mem_sectorAddrs.mpr ⟨_, le_refl _, Nat.not_lt.mp hle, sectorAddr_toNat (by omega)⟩
    obtain ⟨b, hb, hb', -⟩ := (hmem _).mp hfirst
    omega
  · intro hlt
    refine ⟨nodup_sectorAddrs addr size, fun a => ?_⟩
    rw [mem_sectorAddrs]
    constructor
    · rintro ⟨k, hk, hk', -⟩
      omega
    · rintro ⟨b, hb, hb', -⟩
      omega

theorem erasesRange_nonempty {addr size : UInt32} (hfit : addr.toNat + size.toNat ≤ 2 ^ 32)
    (hsize : 0 < size.toNat) :
    ErasesRange addr size ↔ addr.toNat + size.toNat ≤ 2 ^ 28 := by
  have hstart := startSec_eq addr
  have hend := endSec_eq hfit hsize
  constructor
  · rintro ⟨-, hmem⟩
    -- the last sector of the range is erased, so its number has 16 bits
    have hlast : (UInt32.ofNat (4096 * ((addr.toNat + size.toNat - 1) / 4096))).toNat =
        4096 * ((addr.toNat + size.toNat - 1) / 4096) :=
      UInt32.toNat_ofNat_of_lt' (show _ < 2 ^ 32 by omega)
    have hin := (hmem (UInt32.ofNat (4096 * ((addr.toNat + size.toNat - 1) / 4096)))).mpr
      ⟨addr.toNat + size.toNat - 1, by omega, by omega, by omega⟩
    obtain ⟨k, -, hk, ha⟩ := mem_sectorAddrs.mp hin
    omega
  · intro hlow
    refine ⟨nodup_sectorAddrs addr size, fun a => ?_⟩
    rw [mem_sectorAddrs]
    constructor
    · rintro ⟨k, hk, hk', ha⟩
      rw [ha]
      exact (mem_range_sectors hsize).mpr ⟨by omega, by omega⟩
    · rintro ⟨b, hb, hb', ha⟩
      exact ⟨b / 4096, by omega, by omega, by omega⟩

/-- For every range that does not wrap around, `tkl_flash_erase` passes the sectors of the range,
    each once, exactly when the range is not empty and lies below 2^28, or is empty and begins
    with a sector whose number is not 0 in 16 bits. -/
theorem erase_range_iff {addr size : UInt32} (hfit : addr.toNat + size.toNat ≤ 2 ^ 32) :
    ErasesRange addr size ↔ EraseMeets addr size := by
  have hlt := addr.toNat_lt
  unfold EraseMeets
  rcases Nat.eq_zero_or_pos size.toNat with hsize | hsize
  · have hstart := startSec_eq addr
    have hend := @endSec_empty addr size hsize
    rw [if_pos hsize, erasesRange_empty hsize, hstart, hend]
    omega
  · rw [if_neg (by omega), erasesRange_nonempty hfit hsize]

/-- The partition of the new image. -/
theorem erase_range_slot : ErasesRange 0x132000 0xA6000 :=
  (erase_range_iff (by decide)).mpr (by unfold EraseMeets; decide)

/-- An empty range inside a sector: the sector is erased. -/
theorem erase_range_none : (100 : UInt32).toNat + (0 : UInt32).toNat ≤ 2 ^ 32 ∧
    ¬ErasesRange 100 0 := by
  refine ⟨by decide, ?_⟩
  rintro ⟨-, hmem⟩
  have hzero : (0 : UInt32) ∈ sectorAddrs 100 0 := mem_sectorAddrs.mpr ⟨0, by decide⟩
  obtain ⟨b, hb, hb', -⟩ := (hmem 0).mp hzero
  simp at hb hb'
  omega

end ArduinoT2.Flash
