import Mathlib.Data.List.GetD

/-
  A memory of bytes: storing and loading a list of bytes, and strings that a zero byte ends.

  `strlen m p n` counts the bytes from `p` to the first zero byte, at most `n` of them. The rules
  are `store_in` and `store_out` for a store, `strlen_add` and `strlen_eq` for a string.
-/

namespace ByteMem

/-- Bytes by address. -/
abbrev Mem := Nat → UInt8

/-- The bytes `bs` stored from `off` on. -/
def store (m : Mem) (off : Nat) (bs : List UInt8) : Mem :=
  fun i => if off ≤ i ∧ i < off + bs.length then bs.getD (i - off) 0 else m i

/-- The `n` bytes from `p` on. -/
def load (m : Mem) (p n : Nat) : List UInt8 := (List.range n).map fun i => m (p + i)

/-- The length of the string at `p`, of which `n` bytes are looked at. -/
def strlen (m : Mem) (p : Nat) : Nat → Nat
  | 0 => 0
  | n + 1 => if m p = 0 then 0 else strlen m (p + 1) n + 1

/-- The bytes of `bs` stand at `p`. -/
def Holds (m : Mem) (p : Nat) (bs : List UInt8) : Prop :=
  ∀ i, i < bs.length → m (p + i) = bs.getD i 0

/-! ## Stores -/

theorem store_out {m : Mem} {off i : Nat} {bs : List UInt8} (h : i < off ∨ off + bs.length ≤ i) :
    store m off bs i = m i := if_neg (by omega)

theorem store_in {m : Mem} {off i : Nat} {bs : List UInt8} (h1 : off ≤ i)
    (h2 : i < off + bs.length) : store m off bs i = bs.getD (i - off) 0 := if_pos ⟨h1, h2⟩

/-- A byte depends on what was there only where nothing is stored. -/
theorem store_congr {m m' : Mem} {i : Nat} (h : m i = m' i) (off : Nat) (bs : List UInt8) :
    store m off bs i = store m' off bs i := by
  unfold store
  rw [h]

theorem store_nil (m : Mem) (off : Nat) : store m off [] = m :=
  funext fun i => store_out (by rw [List.length_nil]; omega)

theorem store_holds (m : Mem) (off : Nat) (bs : List UInt8) : Holds (store m off bs) off bs := by
  intro i hi
  rw [store_in (by omega) (by omega), Nat.add_sub_cancel_left]

/-- Storing a concatenation is storing its parts one behind the other. -/
theorem store_append (m : Mem) (off : Nat) (xs ys : List UInt8) :
    store (store m off xs) (off + xs.length) ys = store m off (xs ++ ys) := by
  refine funext fun i => ?_
  unfold store
  rw [List.length_append]
  by_cases hy : off + xs.length ≤ i ∧ i < off + xs.length + ys.length
  · rw [if_pos hy, if_pos (by omega), List.getD_append_right _ _ _ _ (by omega)]
    congr 1
    omega
  · rw [if_neg hy]
    by_cases hx : off ≤ i ∧ i < off + xs.length
    · rw [if_pos hx, if_pos (by omega), List.getD_append _ _ _ _ (by omega)]
    · rw [if_neg hx, if_neg (by omega)]

/-! ## Loads and strings -/

@[simp] theorem length_load (m : Mem) (p n : Nat) : (load m p n).length = n := by simp [load]

theorem getD_load {m : Mem} {p n i : Nat} (h : i < n) (x : UInt8) :
    (load m p n).getD i x = m (p + i) := by
  simp [load, List.getD_eq_getElem?_getD, h]

/-- Bytes that are not zero count. -/
theorem strlen_add {m : Mem} {p k : Nat} (h : ∀ i, i < k → m (p + i) ≠ 0) (n : Nat) :
    strlen m p (k + n) = k + strlen m (p + k) n := by
  induction k generalizing p with
  | zero => rw [Nat.zero_add, Nat.zero_add, Nat.add_zero]
  | succ k ih =>
    have hrest : ∀ i, i < k → m (p + 1 + i) ≠ 0 := by
      intro i hi
      rw [Nat.add_assoc, Nat.add_comm 1 i]
      exact h (i + 1) (by omega)
    have hfirst : m p ≠ 0 := h 0 (Nat.succ_pos k)
    rw [show k + 1 + n = k + n + 1 by omega, strlen, if_neg hfirst, ih hrest,
      show p + 1 + k = p + (k + 1) by omega]
    omega

theorem strlen_zero {m : Mem} {p n : Nat} (h : m p = 0) : strlen m p n = 0 := by
  cases n with
  | zero => rfl
  | succ n => exact if_pos h

theorem Holds.ne_zero {m : Mem} {p : Nat} {bs : List UInt8} (h : Holds m p bs) (hz : 0 ∉ bs)
    (i : Nat) (hi : i < bs.length) : m (p + i) ≠ 0 := by
  rw [h i hi, List.getD_eq_getElem bs 0 hi]
  intro h0
  exact hz (h0 ▸ List.getElem_mem hi)

/-- The length of a string that a zero byte ends. -/
theorem strlen_eq {m : Mem} {p n : Nat} {bs : List UInt8} (hz : 0 ∉ bs) (h : Holds m p bs)
    (hend : m (p + bs.length) = 0) (hn : bs.length ≤ n) : strlen m p n = bs.length := by
  obtain ⟨k, rfl⟩ := Nat.exists_eq_add_of_le hn
  rw [strlen_add (h.ne_zero hz), strlen_zero hend, Nat.add_zero]

end ByteMem
