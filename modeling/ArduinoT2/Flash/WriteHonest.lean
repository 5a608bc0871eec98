import ArduinoT2.Adapter.TklFlash

/-
  What the return value of `tkl_flash_write` (tkl_flash.c) is worth.

  The driver checks the range and drops a write that fails the check, and the adapter answers
  `OPRT_OK` to every write from a buffer. The check counts from the page of the first byte, so a
  write that begins inside a page can pass it and still reach behind the chip.

  `write_honest_iff`: a write from a buffer that is answered with `OPRT_OK` has been carried out
  inside the chip exactly when its range is empty or ends inside the chip.
-/

namespace ArduinoT2.Flash

open ArduinoT2.Vendor ArduinoT2.Adapter

/-- Every byte of the `len` bytes from `addr` on is a byte of the chip. -/
def FitsFlash (d : FlashDev) (addr : UInt32) (len : Nat) : Prop :=
  ∀ a, addr.toNat ≤ a → a < addr.toNat + len → a < d.cfg.flashSize

/-- `d'` is `d` with the bytes of `src` ANDed into the range at `addr` and no other byte
    changed. -/
def Written (d d' : FlashDev) (addr : UInt32) (src : List UInt8) : Prop :=
  ∀ a, d'.mem a = if addr.toNat ≤ a ∧ a < addr.toNat + src.length
    then d.mem a &&& src.getD (a - addr.toNat) 0xFF else d.mem a

/-- A write that is reported as successful fits the chip and has been carried out. -/
def WriteHonest (d : FlashDev) (addr : UInt32) (src : Option (List UInt8)) : Prop :=
  (tklFlashWrite d addr src).1 = oprtOk → ∃ bs, src = some bs ∧
    FitsFlash d addr bs.length ∧ Written d (tklFlashWrite d addr src).2 addr bs

theorem fitsFlash_iff (d : FlashDev) (addr : UInt32) (len : Nat) :
    FitsFlash d addr len ↔ len = 0 ∨ addr.toNat + len ≤ d.cfg.flashSize := by
  unfold FitsFlash
  constructor
  · intro h
    by_cases h0 : len = 0
    · exact .inl h0
    · have hlast := h (addr.toNat + len - 1) (by omega) (by omega)
      exact .inr (by omega)
  · intro h a ha hlt
    omega

/-! ## What a write does to the memory -/

/-- A write from a buffer programs it, or nothing at all when the driver's check fails. -/
theorem mem_tklFlashWrite (d : FlashDev) (addr : UInt32) (src : List UInt8) :
    (tklFlashWrite d addr (some src)).2.mem = if d.InRange addr.toNat src.length
      then (Nor.Op.program addr.toNat src).exec d.mem else d.mem := by
  obtain ⟨ops, hex, hops⟩ := tklFlashWrite_spec d addr src
  rw [hex.mem, hops.effect]

/-- A write that fails the check is answered with `OPRT_OK` and changes no byte. -/
theorem tklFlashWrite_dropped {d : FlashDev} {addr : UInt32} {src : List UInt8}
    (h : ¬ d.InRange addr.toNat src.length) :
    (tklFlashWrite d addr (some src)).1 = oprtOk ∧
      (tklFlashWrite d addr (some src)).2.mem = d.mem := by
  rw [mem_tklFlashWrite, if_neg h]
  exact ⟨rfl, rfl⟩

/-- A non-empty range inside the chip passes the check, wherever it starts in its page. -/
theorem inRange_of_fits {d : FlashDev} {address len : Nat} (h0 : 0 < len)
    (h : address + len ≤ d.cfg.flashSize) : d.InRange address len := by
  have hpage : address / 32 * 32 ≤ address := Nat.div_mul_le_self _ _
  exact ⟨by omega, by omega, by omega⟩

theorem written_of_fits {d : FlashDev} {addr : UInt32} {src : List UInt8}
    (h : src.length = 0 ∨ addr.toNat + src.length ≤ d.cfg.flashSize) :
    Written d (tklFlashWrite d addr (some src)).2 addr src := by
  have hexec : (tklFlashWrite d addr (some src)).2.mem =
      (Nor.Op.program addr.toNat src).exec d.mem := by
    rw [mem_tklFlashWrite]
    by_cases h0 : src.length = 0
    · rw [List.eq_nil_of_length_eq_zero h0, Nor.program_nil, ite_self]
    · rw [if_pos (inRange_of_fits (by omega) (by omega))]
  intro a
  rw [hexec]
  rfl

/-- What `tkl_flash_write` reports as written is written, inside the chip, exactly when there is
    no buffer, nothing to write, or the range ends inside the chip. -/
theorem write_honest_iff (d : FlashDev) (addr : UInt32) (src : Option (List UInt8)) :
    WriteHonest d addr src ↔
      ∀ bs, src = some bs → bs = [] ∨ addr.toNat + bs.length ≤ d.cfg.flashSize := by
  cases src with
  | none =>
    have hret : (tklFlashWrite d addr none).1 ≠ oprtOk := show oprtInvalidParm ≠ oprtOk by decide
    exact ⟨fun _ bs h => (nomatch h), fun _ h => absurd h hret⟩
  | some src =>
    have hret : (tklFlashWrite d addr (some src)).1 = oprtOk := rfl
    constructor
    · intro h bs hbs
      obtain ⟨bs', hbs', hfits, -⟩ := h hret
      cases hbs
      cases hbs'
      exact ((fitsFlash_iff d addr _).mp hfits).imp_left List.eq_nil_of_length_eq_zero
    · intro h _
      have hlen := (h src rfl).imp_left List.length_eq_zero_iff.mpr
      exact ⟨src, rfl, (fitsFlash_iff d addr _).mpr hlen, written_of_fits hlen⟩

/-- One byte behind the end of a 2 MiB chip: `OPRT_OK`, and nothing is written. -/
theorem write_behind_blank :
    blankFlash.cfg.flashSize = 0x200000 ∧
    (tklFlashWrite blankFlash 0x200000 (some [0x00])).1 = oprtOk ∧
    (tklFlashWrite blankFlash 0x200000 (some [0x00])).2.mem 0x200000 = 0xFF ∧
    ¬ WriteHonest blankFlash 0x200000 (some [0x00]) := by
  have hsize : blankFlash.cfg.flashSize = 0x200000 := by decide
  have hout : ¬ blankFlash.InRange (0x200000 : UInt32).toNat [(0x00 : UInt8)].length := by
    decide
  obtain ⟨hret, hmem⟩ := tklFlashWrite_dropped hout
  refine ⟨hsize, hret, by rw [hmem]; rfl, ?_⟩
  intro h
  obtain ⟨bs, hbs, hfits, -⟩ := h hret
  cases hbs
  have hin := hfits 0x200000 (by decide) (by decide)
  omega

end ArduinoT2.Flash
