import Mathlib.Data.List.Basic

/-
  Bit fields of a register: the field under `mask` at position `post`, read by shift and mask
  and written by clearing and or-ing. A register of any width; the conditions on the masks are
  equations between constants that `decide` closes at a concrete register layout.
-/

namespace BitField

variable {w : Nat}

/-- The field of `v` under `mask` at position `post`. -/
def get (v mask : BitVec w) (post : Nat) : BitVec w := (v >>> post) &&& mask

/-- `v` with the field under `mask` at position `post` set to `p`. -/
def put (v mask : BitVec w) (post : Nat) (p : BitVec w) : BitVec w :=
  (v &&& ~~~(mask <<< post)) ||| (p <<< post)

/-- No bit of `mask` is lost at position `post`. -/
def Fits (mask : BitVec w) (post : Nat) : Prop := (mask <<< post) >>> post = mask

instance (mask : BitVec w) (post : Nat) : Decidable (Fits mask post) :=
  inferInstanceAs (Decidable (_ = _))

theorem Fits.lt {mask : BitVec w} {post i : Nat} (h : Fits mask post)
    (hm : mask.getLsbD i = true) : post + i < w := by
  have hb := congrArg (fun b => b.getLsbD i) h
  simp only [BitVec.getLsbD_ushiftRight, BitVec.getLsbD_shiftLeft, hm] at hb
  simp at hb
  exact hb.1

theorem getLsbD_imp_of_and_eq {p mask : BitVec w} (h : p &&& mask = p) (i : Nat)
    (hp : p.getLsbD i = true) : mask.getLsbD i = true := by
  have hb := congrArg (fun b => b.getLsbD i) h
  simpa [hp] using hb

theorem get_put_self (v : BitVec w) {mask p : BitVec w} {post : Nat} (hm : Fits mask post)
    (hp : p &&& mask = p) : get (put v mask post p) mask post = p := by
  ext i hi
  have h1 := hm.lt (i := i)
  have h2 := getLsbD_imp_of_and_eq hp i
  simp only [get, put, BitVec.getElem_and, BitVec.getElem_ushiftRight, BitVec.getLsbD_or,
    BitVec.getLsbD_and, BitVec.getLsbD_not, BitVec.getLsbD_shiftLeft]
  simp only [← BitVec.getLsbD_eq_getElem]
  grind

/-- Writing one field leaves a disjoint field alone. -/
theorem get_put_of_disjoint (v : BitVec w) {mask mask' p : BitVec w} {post post' : Nat}
    (hm : Fits mask post) (hd : (mask <<< post) &&& (mask' <<< post') = 0) (hp : p &&& mask' = p) :
    get (put v mask' post' p) mask post = get v mask post := by
  ext i hi
  have h1 := hm.lt (i := i)
  have h2 := getLsbD_imp_of_and_eq hp (post + i - post')
  have h3 := congrArg (fun b => b.getLsbD (post + i)) hd
  simp only [BitVec.getLsbD_and, BitVec.getLsbD_shiftLeft, Nat.add_sub_cancel_left] at h3
  simp only [get, put, BitVec.getElem_and, BitVec.getElem_ushiftRight, BitVec.getLsbD_or,
    BitVec.getLsbD_and, BitVec.getLsbD_not, BitVec.getLsbD_shiftLeft]
  simp only [← BitVec.getLsbD_eq_getElem]
  have h4 : (0 : BitVec w).getLsbD (post + i) = false := BitVec.getLsbD_zero
  grind

/-- The field of a register cut down to bits that contain the field. -/
theorem get_and_of_subset (v : BitVec w) {mask cut : BitVec w} {post : Nat} (hm : Fits mask post)
    (hc : (mask <<< post) &&& cut = mask <<< post) :
    get (v &&& cut) mask post = get v mask post := by
  ext i hi
  have h1 := hm.lt (i := i)
  have h2 := congrArg (fun b => b.getLsbD (post + i)) hc
  simp only [BitVec.getLsbD_and, BitVec.getLsbD_shiftLeft, Nat.add_sub_cancel_left] at h2
  simp only [get, BitVec.getElem_and, BitVec.getElem_ushiftRight, BitVec.getLsbD_and]
  simp only [← BitVec.getLsbD_eq_getElem]
  grind

/-- A field found equal to `p` in place is read as `p`. -/
theorem get_of_eq_in_place {v mask p : BitVec w} {post : Nat} (hm : Fits mask post)
    (hp : p &&& mask = p) (h : p <<< post = v &&& (mask <<< post)) : get v mask post = p := by
  ext i hi
  have h1 := hm.lt (i := i)
  have h2 := getLsbD_imp_of_and_eq hp i
  have h3 := congrArg (fun b => b.getLsbD (post + i)) h
  simp only [BitVec.getLsbD_and, BitVec.getLsbD_shiftLeft, Nat.add_sub_cancel_left] at h3
  simp only [get, BitVec.getElem_and, BitVec.getElem_ushiftRight]
  simp only [← BitVec.getLsbD_eq_getElem]
  grind

end BitField
