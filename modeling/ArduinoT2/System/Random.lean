import Mathlib.Algebra.Group.Int.Defs

/-
  `random` (WMath.cpp) over `tkl_system_get_random` (tkl_system.c), in two's complement.

  An operation that divides is an `Option`: `none` is a division by zero. `bkRand` is what
  `bk_rand` returns. `tal_system_get_random` is not part of the sources; it is a parameter, and
  `Forwards` says that it calls `tkl_system_get_random`.

  The width of the range is computed as a signed difference and used as an unsigned one, in which
  it is exact (`toNat_width`), so a wrap-around does no harm: `random_mem_range`.
-/

namespace ArduinoT2.System

/-- `x % y` of unsigned integers. -/
def umod (x y : UInt32) : Option UInt32 := if y = 0 then none else some (x % y)

/-- `tkl_system_get_random`. -/
def tklSystemGetRandom (bkRand : Int32) (range : UInt32) : Option Int32 :=
  let trange := if range = 0 then 0xFF else range
  (umod bkRand.toUInt32 trange).map UInt32.toInt32

section Random

variable (talSystemGetRandom : UInt32 → Option Int32)

/-- `random(howbig)`. -/
def randomHowbig (howbig : Int32) : Option Int32 :=
  if howbig = 0 then some 0 else talSystemGetRandom (howbig.toUInt32 &&& 0xFFFFFFFF)

/-- `random(howsmall, howbig)`. -/
def random (howsmall howbig : Int32) : Option Int32 :=
  if howsmall ≥ howbig then some howsmall
  else
    let diff := howbig - howsmall
    (randomHowbig talSystemGetRandom diff).map (· + howsmall)

/-- `tal_system_get_random` calls `tkl_system_get_random`, and `bk_rand` returns `bkRand` there. -/
def Forwards (bkRand : Int32) : Prop :=
  ∀ range, talSystemGetRandom range = tklSystemGetRandom bkRand range

/-! ## Differences and sums -/

/-- The difference of two signed integers is exact as an unsigned one. -/
theorem toNat_width {a b : Int32} (h : a < b) :
    ((b - a).toUInt32.toNat : Int) = b.toInt - a.toInt := by
  have hlt := Int32.lt_iff_toInt_lt.mp h
  have hnat : (b - a).toUInt32.toNat = (b.toBitVec - a.toBitVec).toNat := rfl
  rw [hnat, BitVec.toNat_sub]
  rw [← Int32.toInt_toBitVec, ← Int32.toInt_toBitVec, BitVec.toInt_eq_toNat_cond,
    BitVec.toInt_eq_toNat_cond] at hlt ⊢
  have ha := a.toBitVec.isLt
  have hb := b.toBitVec.isLt
  split at hlt <;> split at hlt <;> omega

/-- Adding an offset that stays in the signed range. -/
theorem toInt_offset {a : Int32} {u : UInt32} (h : a.toInt + u.toNat < 2 ^ 31) :
    (u.toInt32 + a).toInt = a.toInt + u.toNat := by
  have hnat : (u.toInt32 + a).toInt = (u.toBitVec + a.toBitVec).toInt := rfl
  rw [hnat, BitVec.toInt_eq_toNat_cond, BitVec.toNat_add]
  rw [← Int32.toInt_toBitVec, BitVec.toInt_eq_toNat_cond] at h ⊢
  have ha := a.toBitVec.isLt
  have hu := u.toBitVec.isLt
  have hueq : u.toBitVec.toNat = u.toNat := rfl
  split at h <;> split <;> omega

/-! ## The range -/

variable {talSystemGetRandom} {bkRand : Int32}

/-- A width that is not zero gives one value below it, without a division by zero. -/
theorem randomHowbig_spec (htal : Forwards talSystemGetRandom bkRand) {howbig : Int32}
    (h : howbig.toUInt32 ≠ 0) : randomHowbig talSystemGetRandom howbig =
      some (bkRand.toUInt32 % howbig.toUInt32).toInt32 := by
  have hne : howbig ≠ 0 := fun h0 => h (by rw [h0]; rfl)
  have hmask : howbig.toUInt32 &&& 0xFFFFFFFF = howbig.toUInt32 := by
    rw [show (0xFFFFFFFF : UInt32) = -1 from rfl, UInt32.and_neg_one]
  unfold randomHowbig
  rw [if_neg hne, htal, hmask]
  unfold tklSystemGetRandom umod
  rw [if_neg h]
  dsimp only
  rw [if_neg h]
  rfl

/-- `random` of a range that is not empty: the remainder of the width, from the lower end on. -/
theorem random_spec (htal : Forwards talSystemGetRandom bkRand) {howsmall howbig : Int32}
    (h : howsmall < howbig) : ∃ r, random talSystemGetRandom howsmall howbig = some r ∧
      r.toInt = howsmall.toInt + (bkRand.toUInt32.toNat % (howbig - howsmall).toUInt32.toNat : Nat)
      := by
  have hlt := Int32.lt_iff_toInt_lt.mp h
  have hwidth := toNat_width h
  have hne : (howbig - howsmall).toUInt32 ≠ 0 := by
    intro h0
    rw [h0] at hwidth
    simp at hwidth
    omega
  have hge : ¬ howsmall ≥ howbig := fun hle => by
    have := Int32.le_iff_toInt_le.mp hle
    omega
  unfold random
  rw [if_neg hge]
  dsimp only
  rw [randomHowbig_spec htal hne]
  refine ⟨_, rfl, ?_⟩
  have hmod := UInt32.toNat_mod bkRand.toUInt32 (howbig - howsmall).toUInt32
  have hrem : bkRand.toUInt32.toNat % (howbig - howsmall).toUInt32.toNat <
      (howbig - howsmall).toUInt32.toNat := Nat.mod_lt _ (by omega)
  have hmax : howbig.toInt < 2 ^ 31 := Int32.toInt_lt howbig
  rw [toInt_offset (by omega), hmod]

/-- `random` answers with a number from `howsmall` to below `howbig`, however wide the range is
    and whatever `bk_rand` returns. -/
theorem random_mem_range {howsmall howbig : Int32} (h : howsmall < howbig)
    (htal : Forwards talSystemGetRandom bkRand) :
    ∃ r, random talSystemGetRandom howsmall howbig = some r ∧ howsmall ≤ r ∧ r < howbig := by
  obtain ⟨r, hr, hval⟩ := random_spec htal h
  have hwidth := toNat_width h
  have hlt := Int32.lt_iff_toInt_lt.mp h
  have hrem : bkRand.toUInt32.toNat % (howbig - howsmall).toUInt32.toNat <
      (howbig - howsmall).toUInt32.toNat := Nat.mod_lt _ (by omega)
  exact ⟨r, hr, Int32.le_iff_toInt_le.mpr (by omega), Int32.lt_iff_toInt_lt.mpr (by omega)⟩

/-- From `bk_rand` that returns -1, over the range of all integers but the last. -/
theorem random_mem_range_wide :
    ∃ r, random (tklSystemGetRandom (-1)) Int32.minValue Int32.maxValue = some r ∧
      Int32.minValue ≤ r ∧ r < Int32.maxValue :=
  random_mem_range (by decide) fun _ => rfl

/-- Every number of the range is the answer for some value of `bk_rand`. -/
theorem random_attained {howsmall howbig v : Int32} (hv : howsmall ≤ v) (hlt : v < howbig) :
    ∃ bkRand, random (tklSystemGetRandom bkRand) howsmall howbig = some v := by
  have h1 := Int32.le_iff_toInt_le.mp hv
  have h2 := Int32.lt_iff_toInt_lt.mp hlt
  have h : howsmall < howbig := Int32.lt_iff_toInt_lt.mpr (by omega)
  obtain ⟨r, hr, hval⟩ := random_spec
    (show Forwards (tklSystemGetRandom (v - howsmall)) (v - howsmall) from fun _ => rfl) h
  refine ⟨v - howsmall, hr.trans (congrArg some (Int32.toInt_inj.mp ?_))⟩
  have hwidth := toNat_width h
  have hoff : ((v - howsmall).toUInt32.toNat : Int) = v.toInt - howsmall.toInt := by
    by_cases heq : howsmall.toInt = v.toInt
    · rw [Int32.toInt_inj.mp heq, Int32.sub_self, Int.sub_self]
      rfl
    · exact toNat_width (Int32.lt_iff_toInt_lt.mpr (by omega))
  rw [hval, Nat.mod_eq_of_lt (by omega)]
  omega

end Random

end ArduinoT2.System
