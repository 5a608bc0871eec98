import Mathlib.Data.List.Basic
import Mathlib.Logic.Function.Basic

/-
  Bounded queues, and their storage in a circular buffer.

  A queue of at most `N` elements is a list; an element that is offered to a full queue is
  dropped (`offer`). A circular buffer of `N` cells stores it from cell `tail` on, with `head` the
  cell behind its last element (`Layout`): `window` reads the queue back, `window_push` and
  `window_pop` are the two ends.
-/

universe u

namespace BoundedQueue

variable {α : Type u} {N : Nat}

/-! ## Offering elements -/

/-- The queue behind an element that is offered to it. -/
def offer (N : Nat) (q : List α) (a : α) : List α := if q.length < N then q ++ [a] else q

/-- The elements that are not dropped, of those offered one behind the other. -/
def admitted (N : Nat) (q : List α) : List α → List α
  | [] => []
  | a :: as => (if q.length < N then [a] else []) ++ admitted N (offer N q a) as

theorem offer_eq (q : List α) (a : α) :
    offer N q a = q ++ if q.length < N then [a] else [] := by
  unfold offer
  split
  · rfl
  · rw [List.append_nil]

theorem foldl_offer (q as : List α) : as.foldl (offer N) q = q ++ admitted N q as := by
  induction as generalizing q with
  | nil => exact (List.append_nil q).symm
  | cons a as ih => rw [List.foldl_cons, ih, admitted, offer_eq, List.append_assoc]

/-- Elements are taken until the queue is full, and then dropped. -/
theorem admitted_eq_take (q as : List α) : admitted N q as = as.take (N - q.length) := by
  induction as generalizing q with
  | nil => exact List.take_nil.symm
  | cons a as ih =>
    rw [admitted, ih]
    unfold offer
    split
    · rename_i h
      obtain ⟨k, hk⟩ := Nat.exists_eq_add_of_lt h
      rw [List.length_append, List.length_singleton, show N - q.length = k + 1 by omega,
        show N - (q.length + 1) = k by omega, List.take_succ_cons]
      rfl
    · rename_i h
      rw [show N - q.length = 0 by omega, List.take_zero, List.take_zero, List.append_nil]

/-! ## Circular buffers -/

/-- The cell behind cell `i`. -/
def next (i : Fin N) : Fin N := ⟨(i.val + 1) % N, Nat.mod_lt _ (Nat.zero_lt_of_lt i.isLt)⟩

/-- The cell `n` cells behind cell `i`. -/
def ahead (i : Fin N) (n : Nat) : Fin N :=
  ⟨(i.val + n) % N, Nat.mod_lt _ (Nat.zero_lt_of_lt i.isLt)⟩

theorem ahead_zero (i : Fin N) : ahead i 0 = i := Fin.ext (Nat.mod_eq_of_lt i.isLt)

theorem next_ahead (i : Fin N) (n : Nat) : next (ahead i n) = ahead i (n + 1) :=
  Fin.ext (Nat.mod_add_mod _ _ _)

theorem ahead_next (i : Fin N) (n : Nat) : ahead (next i) n = ahead i (n + 1) := by
  apply Fin.ext
  calc ((i.val + 1) % N + n) % N = (i.val + 1 + n) % N := Nat.mod_add_mod _ _ _
    _ = (i.val + (n + 1)) % N := by rw [Nat.add_assoc, Nat.add_comm 1 n]

/-- Less than once around the buffer there is another cell. -/
theorem ahead_ne {i : Fin N} {n : Nat} (h1 : 0 < n) (h2 : n < N) : ahead i n ≠ i := by
  intro h
  have hval : (i.val + n) % N = i.val := congrArg Fin.val h
  have hi := i.isLt
  rcases Nat.lt_or_ge (i.val + n) N with hlt | hge
  · rw [Nat.mod_eq_of_lt hlt] at hval
    omega
  · rw [Nat.mod_eq_sub_mod hge, Nat.mod_eq_of_lt (by omega)] at hval
    omega

/-- `n` elements are stored from cell `tail` up to cell `head`. -/
structure Layout (head tail : Fin N) (n : Nat) : Prop where
  le : n ≤ N
  head : head = ahead tail n

theorem Layout.empty (i : Fin N) : Layout i i 0 := ⟨Nat.zero_le _, (ahead_zero i).symm⟩

theorem Layout.push {head tail : Fin N} {n : Nat} (h : Layout head tail n) (hlt : n < N) :
    Layout (next head) tail (n + 1) := ⟨hlt, by rw [h.head, next_ahead]⟩

theorem Layout.pop {head tail : Fin N} {n : Nat} (h : Layout head tail (n + 1)) :
    Layout head (next tail) n := ⟨Nat.le_of_succ_le h.le, by rw [h.head, ahead_next]⟩

/-- The `n` elements from cell `tail` on. -/
def window (buf : Fin N → α) (tail : Fin N) : Nat → List α
  | 0 => []
  | n + 1 => buf tail :: window buf (next tail) n

@[simp] theorem length_window (buf : Fin N → α) (tail : Fin N) (n : Nat) :
    (window buf tail n).length = n := by
  induction n generalizing tail with
  | zero => rfl
  | succ n ih => rw [window, List.length_cons, ih]

/-- The first element is at `tail`. -/
theorem window_pop (buf : Fin N → α) (tail : Fin N) (n : Nat) :
    window buf tail (n + 1) = buf tail :: window buf (next tail) n := rfl

/-- An element written to `head` is the last one. -/
theorem window_push (buf : Fin N → α) {head tail : Fin N} {n : Nat} (h : Layout head tail n)
    (hlt : n < N) (a : α) :
    window (Function.update buf head a) tail (n + 1) = window buf tail n ++ [a] := by
  induction n generalizing tail with
  | zero =>
    rw [h.head, ahead_zero, window_pop, Function.update_self]
    rfl
  | succ n ih =>
    have hne : tail ≠ head := by
      rw [h.head]
      exact (ahead_ne (Nat.succ_pos n) hlt).symm
    rw [window_pop, ih h.pop (Nat.lt_of_succ_lt hlt), Function.update_of_ne hne]
    rfl

end BoundedQueue
