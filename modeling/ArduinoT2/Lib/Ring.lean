import Mathlib.Logic.Function.Basic
import Mathlib.Data.List.Nodup

/-
  Rings of nodes linked both ways.

  `IsRing s xs` says that the nodes `xs` follow each other in `s`, the first behind the last. A
  ring may be read from any of its nodes on (`isRing_append_comm`), so each edit is shown at the
  head of the list: `isRing_insertAfter` and `isRing_unlink` are the rules of the two edits, and
  `IsRing.congr` leaves alone what the nodes of the ring do not hold.
-/

namespace Ring

universe u

variable {A : Type u}

/-- The two links of every node. -/
@[ext] structure Links (A : Type u) where
  next : A → A
  prev : A → A

/-- From `a` over the nodes `xs` to `b`, linked both ways. -/
def Path (s : Links A) : A → List A → A → Prop
  | a, [], b => s.next a = b ∧ s.prev b = a
  | a, x :: xs, b => s.next a = x ∧ s.prev x = a ∧ Path s x xs b

/-- The nodes `xs` are a ring. -/
def IsRing (s : Links A) : List A → Prop
  | [] => False
  | x :: xs => Path s x xs x ∧ (x :: xs).Nodup

variable {s s' : Links A} {a b x y : A} {xs ys : List A}

theorem path_append : Path s a (xs ++ y :: ys) b ↔ Path s a xs y ∧ Path s y ys b := by
  induction xs generalizing a with
  | nil => simp only [List.nil_append, Path, and_assoc]
  | cons x xs ih =>
    have hrest := ih (a := x)
    simp only [List.cons_append, Path, hrest, and_assoc]

/-- A path holds of every state with the same links of its nodes. -/
theorem Path.congr (h : Path s a xs b) (hnext : ∀ z ∈ a :: xs, s'.next z = s.next z)
    (hprev : ∀ z ∈ xs ++ [b], s'.prev z = s.prev z) : Path s' a xs b := by
  induction xs generalizing a with
  | nil =>
    obtain ⟨hn, hp⟩ := h
    exact ⟨(hnext a List.mem_cons_self).trans hn, (hprev b (by simp)).trans hp⟩
  | cons x xs ih =>
    obtain ⟨hn, hp, hrest⟩ := h
    refine ⟨(hnext a List.mem_cons_self).trans hn, (hprev x (by simp)).trans hp, ih hrest ?_ ?_⟩
    · exact fun z hz => hnext z (List.mem_cons_of_mem _ hz)
    · exact fun z hz => hprev z (List.mem_cons_of_mem _ hz)

theorem IsRing.nodup (h : IsRing s xs) : xs.Nodup := by
  match xs, h with
  | _ :: _, h => exact h.2

theorem IsRing.congr (h : IsRing s xs) (hnext : ∀ z ∈ xs, s'.next z = s.next z)
    (hprev : ∀ z ∈ xs, s'.prev z = s.prev z) : IsRing s' xs := by
  match xs, h with
  | x :: xs, ⟨hpath, hnd⟩ =>
    refine ⟨hpath.congr hnext fun z hz => hprev z ?_, hnd⟩
    simpa [or_comm] using hz

theorem isRing_rotate (xs : List A) (h : IsRing s (x :: xs)) : IsRing s (xs ++ [x]) := by
  obtain ⟨hpath, hnd⟩ := h
  cases xs with
  | nil => exact ⟨hpath, hnd⟩
  | cons y ys =>
    obtain ⟨hn, hp, hrest⟩ := hpath
    refine ⟨path_append.2 ⟨hrest, hn, hp⟩, ?_⟩
    exact (List.perm_append_singleton x (y :: ys)).nodup_iff.2 hnd

/-- A ring may be read from any of its nodes on. -/
theorem isRing_append_comm : IsRing s (xs ++ ys) ↔ IsRing s (ys ++ xs) := by
  have hturn : ∀ xs ys : List A, IsRing s (xs ++ ys) → IsRing s (ys ++ xs) := by
    intro xs
    induction xs with
    | nil => exact fun ys h => by rwa [List.append_nil]
    | cons x xs ih =>
      intro ys h
      have hrot := isRing_rotate (xs ++ ys) h
      rw [List.append_assoc] at hrot
      simpa using ih (ys ++ [x]) hrot
  exact ⟨hturn xs ys, hturn ys xs⟩

/-! ## Neighbours -/

/-- The node behind a node of the ring. -/
theorem IsRing.next_eq (xs ys : List A) (h : IsRing s (xs ++ x :: y :: ys)) :
    s.next x = y ∧ s.prev y = x := by
  have hhead := isRing_append_comm.1 h
  exact ⟨hhead.1.1, hhead.1.2.1⟩

/-- The first node is behind the last. -/
theorem IsRing.last_eq (xs : List A) (h : IsRing s (x :: xs ++ [y])) :
    s.next y = x ∧ s.prev x = y := by
  have hhead := isRing_append_comm.1 h
  exact ⟨hhead.1.1, hhead.1.2.1⟩

theorem IsRing.alone_eq (h : IsRing s [x]) : s.next x = x ∧ s.prev x = x := h.1

/-- The links of a node of the ring stay in the ring. -/
theorem IsRing.mem (h : IsRing s xs) (hx : x ∈ xs) : s.next x ∈ xs ∧ s.prev x ∈ xs := by
  obtain ⟨l, r, rfl⟩ := List.append_of_mem hx
  have hhead := isRing_append_comm.1 h
  have hmem : ∀ z, z ∈ x :: r ++ l → z ∈ l ++ x :: r := fun z hz =>
    List.mem_append.2 (List.mem_append.1 hz).symm
  constructor
  · apply hmem
    match r, l, hhead with
    | [], [], h => simp [h.1.1]
    | [], z :: l, h => simp [h.1.1]
    | z :: r, l, h => simp [h.1.1]
  · apply hmem
    obtain hnil | ⟨front, z, hlast⟩ : r ++ l = [] ∨ ∃ front z, r ++ l = front ++ [z] :=
      (List.eq_nil_or_concat _).imp_right fun ⟨front, z, hz⟩ => ⟨front, z, by simpa using hz⟩
    · rw [List.cons_append, hnil] at hhead ⊢
      simp [hhead.alone_eq.2]
    · rw [List.cons_append, hlast] at hhead ⊢
      have hprev := (IsRing.last_eq front hhead).2
      simp [hprev]

/-! ## Edits -/

section Edits

variable [DecidableEq A]

/-- Puts `x` behind `p`. -/
def Links.insertAfter (s : Links A) (p x : A) : Links A where
  next := Function.update (Function.update s.next x (s.next p)) p x
  prev := Function.update (Function.update s.prev (s.next p) x) x p

/-- Takes `x` out. -/
def Links.unlink (s : Links A) (x : A) : Links A where
  next := Function.update s.next (s.prev x) (s.next x)
  prev := Function.update s.prev (s.next x) (s.prev x)

theorem isRing_insertAfter_head {p : A} (xs : List A) (h : IsRing s (p :: xs)) (hx : x ∉ p :: xs) :
    IsRing (s.insertAfter p x) (p :: x :: xs) := by
  obtain ⟨hpath, hnd⟩ := h
  have hpx : p ≠ x := fun he => hx (he ▸ List.mem_cons_self)
  refine ⟨⟨?_, ?_, ?_⟩, ?_⟩
  · simp [Links.insertAfter]
  · simp [Links.insertAfter]
  · cases xs with
    | nil =>
      refine ⟨?_, ?_⟩
      · simp [Links.insertAfter, hpx.symm, hpath.1]
      · simp [Links.insertAfter, hpx, hpath.1]
    | cons y ys =>
      obtain ⟨hn, hp, hrest⟩ := hpath
      have hyx : y ≠ x := fun he => hx (by simp [he])
      obtain ⟨hpmem, hynd⟩ := List.nodup_cons.1 hnd
      have hymem := (List.nodup_cons.1 hynd).1
      refine ⟨?_, ?_, hrest.congr (fun z hz => ?_) fun z hz => ?_⟩
      · simp [Links.insertAfter, hpx.symm, hn]
      · simp [Links.insertAfter, hyx, hn]
      · have hzp : z ≠ p := fun he => hpmem (he ▸ hz)
        have hzx : z ≠ x := fun he => hx (he ▸ List.mem_cons_of_mem _ hz)
        simp [Links.insertAfter, hzp, hzx]
      · have hzy : z ≠ y := by
          intro he
          obtain hz | hz := List.mem_append.1 hz
          · exact hymem (he ▸ hz)
          · exact hpmem (List.mem_singleton.1 hz ▸ he ▸ List.mem_cons_self)
        have hzx : z ≠ x := by
          intro he
          obtain hz | hz := List.mem_append.1 hz
          · exact hx (by simp [← he, hz])
          · exact hpx (List.mem_singleton.1 hz ▸ he)
        simp [Links.insertAfter, hzx, hn, hzy]
  · rw [List.nodup_cons, List.mem_cons, not_or, List.nodup_cons]
    rw [List.nodup_cons] at hnd
    exact ⟨⟨hpx, hnd.1⟩, fun hmem => hx (List.mem_cons_of_mem _ hmem), hnd.2⟩

/-- A node put behind `p` is behind `p` in the ring. -/
theorem isRing_insertAfter {p : A} (h : IsRing s (xs ++ p :: ys)) (hx : x ∉ xs ++ p :: ys) :
    IsRing (s.insertAfter p x) (xs ++ p :: x :: ys) := by
  have hhead := isRing_append_comm.1 h
  refine isRing_append_comm.2 (isRing_insertAfter_head (ys ++ xs) hhead fun hmem => hx ?_)
  simp only [List.mem_cons, List.mem_append] at hmem ⊢
  obtain hp | hy | hz := hmem
  · exact .inr (.inl hp)
  · exact .inr (.inr hy)
  · exact .inl hz

theorem isRing_unlink_head (h : IsRing s (x :: y :: ys)) : IsRing (s.unlink x) (y :: ys) := by
  obtain ⟨⟨hn, hp, hrest⟩, hnd⟩ := h
  obtain ⟨hxmem, hynd⟩ := List.nodup_cons.1 hnd
  refine ⟨?_, hynd⟩
  obtain rfl | ⟨front, z, rfl⟩ : ys = [] ∨ ∃ front z, ys = front ++ [z] :=
    (List.eq_nil_or_concat _).imp_right fun ⟨front, z, hz⟩ => ⟨front, z, by simpa using hz⟩
  · obtain ⟨hyn, hyp⟩ := hrest
    exact ⟨by simp [Links.unlink, hyp, hn], by simp [Links.unlink, hyp, hn]⟩
  · obtain ⟨hfront, hzn, hzp⟩ := path_append.1 hrest
    have hz : z ∉ y :: front := by
      have hperm : ((y :: front) ++ [z]).Nodup := hynd
      exact fun hmem => (List.nodup_append.1 hperm).2.2 z hmem z (by simp) rfl
    have hy := (List.nodup_cons.1 hynd).1
    refine path_append.2 ⟨hfront.congr (fun w hw => ?_) fun w hw => ?_, ?_, ?_⟩
    · have hwz : w ≠ z := fun he => hz (he ▸ hw)
      simp [Links.unlink, hzp, hwz]
    · have hwy : w ≠ y := fun he => hy (he ▸ hw)
      simp [Links.unlink, hn, hwy]
    · simp [Links.unlink, hzp, hn]
    · simp [Links.unlink, hzp, hn]

/-- A ring without a node that is taken out. -/
theorem isRing_unlink (h : IsRing s (xs ++ x :: ys)) (hne : xs ++ ys ≠ []) :
    IsRing (s.unlink x) (xs ++ ys) := by
  have hhead := isRing_append_comm.1 h
  refine isRing_append_comm.2 ?_
  obtain ⟨z, zs, hz⟩ : ∃ z zs, ys ++ xs = z :: zs := by
    refine List.exists_cons_of_ne_nil fun hnil => hne ?_
    obtain ⟨rfl, rfl⟩ := List.append_eq_nil_iff.1 hnil
    rfl
  rw [List.cons_append, hz] at hhead
  rw [hz]
  exact isRing_unlink_head hhead

/-- A ring that holds neither node is left alone. -/
theorem IsRing.insertAfter_frame {p : A} (h : IsRing s xs) (hp : p ∉ xs) (hx : x ∉ xs)
    (hn : s.next p ∉ xs) : IsRing (s.insertAfter p x) xs := by
  refine h.congr (fun z hz => ?_) fun z hz => ?_
  · have hzp : z ≠ p := fun he => hp (he ▸ hz)
    have hzx : z ≠ x := fun he => hx (he ▸ hz)
    simp [Links.insertAfter, hzp, hzx]
  · have hzn : z ≠ s.next p := fun he => hn (he ▸ hz)
    have hzx : z ≠ x := fun he => hx (he ▸ hz)
    simp [Links.insertAfter, hzn, hzx]

theorem IsRing.unlink_frame (h : IsRing s xs) (hn : s.next x ∉ xs) (hp : s.prev x ∉ xs) :
    IsRing (s.unlink x) xs := by
  refine h.congr (fun z hz => ?_) fun z hz => ?_
  · have hzp : z ≠ s.prev x := fun he => hp (he ▸ hz)
    simp [Links.unlink, hzp]
  · have hzn : z ≠ s.next x := fun he => hn (he ▸ hz)
    simp [Links.unlink, hzn]

end Edits

end Ring
