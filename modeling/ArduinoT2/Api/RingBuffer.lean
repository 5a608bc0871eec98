import ArduinoT2.Lib.BoundedQueue
import Mathlib.Algebra.GroupWithZero.Nat

/-
  The ring buffer (api/RingBuffer.h): `RingBufferN<N>` with its head, tail and count, and its
  operations as bounded-queue operations. The buffer stores a queue when count, head and tail
  belong together (`Wf`), and `contents` is this queue.
-/

namespace ArduinoT2.Api

open BoundedQueue

/-! ## Model -/

/-- `RingBufferN<N>`. The indices are below `N`: `nextIndex` takes the remainder. -/
structure RingBufferN (N : Nat) where
  aucBuffer : Fin N → UInt8
  iHead : Fin N
  iTail : Fin N
  numElems : Int

namespace RingBufferN

variable {N : Nat}

/-- `nextIndex`. -/
def nextIndex (index : Fin N) : Fin N := next index

/-- `clear`. -/
def clear [NeZero N] (r : RingBufferN N) : RingBufferN N :=
  { r with iHead := 0, iTail := 0, numElems := 0 }

/-- The constructor. -/
def new (N : Nat) [NeZero N] : RingBufferN N :=
  clear { aucBuffer := fun _ => 0, iHead := 0, iTail := 0, numElems := 0 }

/-- `isEmpty`. -/
def isEmpty (r : RingBufferN N) : Bool := r.numElems == 0

/-- `isFull`. -/
def isFull (r : RingBufferN N) : Bool := r.numElems == N

/-- `store_char`. -/
def storeChar (r : RingBufferN N) (c : UInt8) : RingBufferN N :=
  if !r.isFull then
    { r with aucBuffer := Function.update r.aucBuffer r.iHead c
             iHead := nextIndex r.iHead
             numElems := r.numElems + 1 }
  else r

/-- `read_char`. -/
def readChar (r : RingBufferN N) : Int × RingBufferN N :=
  if r.isEmpty then (-1, r)
  else
    let value := r.aucBuffer r.iTail
    (value.toNat, { r with iTail := nextIndex r.iTail, numElems := r.numElems - 1 })

/-- `available`. -/
def available (r : RingBufferN N) : Int := r.numElems

/-- `availableForStore`. -/
def availableForStore (r : RingBufferN N) : Int := N - r.numElems

/-- `peek`. -/
def peek (r : RingBufferN N) : Int :=
  if r.isEmpty then -1 else (r.aucBuffer r.iTail).toNat

/-! ## The queue that it stores -/

/-- Count, head and tail belong together. -/
structure Wf (r : RingBufferN N) : Prop where
  nonneg : 0 ≤ r.numElems
  layout : Layout r.iHead r.iTail r.numElems.toNat

/-- The bytes stored, oldest first. -/
def contents (r : RingBufferN N) : List UInt8 := window r.aucBuffer r.iTail r.numElems.toNat

/-- A byte as an `int`. -/
def byteVal (b : UInt8) : Int := b.toNat

/-- What `read_char` returns for a queue. -/
def front : List UInt8 → Int
  | [] => -1
  | b :: _ => byteVal b

theorem byteVal_ne (b : UInt8) : byteVal b ≠ -1 := by
  unfold byteVal
  omega

theorem front_eq_neg_one {q : List UInt8} : front q = -1 ↔ q = [] := by
  cases q with
  | nil => exact ⟨fun _ => rfl, fun _ => rfl⟩
  | cons b q => exact ⟨fun h => absurd h (byteVal_ne b), fun h => nomatch h⟩

theorem length_contents (r : RingBufferN N) : r.contents.length = r.numElems.toNat :=
  length_window _ _ _

theorem Wf.numElems_eq {r : RingBufferN N} (h : r.Wf) : r.numElems = r.contents.length := by
  rw [length_contents]
  exact (Int.toNat_of_nonneg h.nonneg).symm

theorem Wf.length_le {r : RingBufferN N} (h : r.Wf) : r.contents.length ≤ N := by
  rw [length_contents]
  exact h.layout.le

theorem wf_new [NeZero N] : (new N).Wf := ⟨Int.le_refl 0, .empty 0⟩

/-- A byte is stored as it is offered to the queue. -/
theorem Wf.storeChar {r : RingBufferN N} (h : r.Wf) (c : UInt8) :
    (r.storeChar c).Wf ∧ (r.storeChar c).contents = offer N r.contents c := by
  have hnum := h.numElems_eq
  have hle := h.length_le
  unfold RingBufferN.storeChar isFull offer
  split
  · rename_i hfull
    have hlt : r.contents.length < N := by
      have : r.numElems ≠ N := by simpa using hfull
      omega
    have hsucc : (r.numElems + 1).toNat = r.numElems.toNat + 1 := by
      have := h.nonneg
      omega
    rw [length_contents] at hlt
    rw [if_pos (by rwa [length_contents])]
    refine ⟨⟨by have := h.nonneg; simp only; omega, ?_⟩, ?_⟩
    · simp only [hsucc]
      exact h.layout.push hlt
    · simp only [contents, hsucc]
      exact window_push r.aucBuffer h.layout hlt c
  · rename_i hfull
    have : r.numElems = N := by simpa using hfull
    rw [if_neg (by omega)]
    exact ⟨h, rfl⟩

theorem Wf.availableForStore {r : RingBufferN N} (h : r.Wf) :
    r.availableForStore ≠ 0 ↔ r.contents.length < N := by
  have hnum := h.numElems_eq
  have hle := h.length_le
  unfold RingBufferN.availableForStore
  omega

/-- A buffer with a first byte holds it at the tail. -/
theorem Wf.contents_cases {r : RingBufferN N} (h : r.Wf) :
    (r.isEmpty = true ∧ r.contents = []) ∨
    (r.isEmpty = false ∧ ∃ n : Nat, r.numElems = (n : Int) + 1 ∧
      r.contents = r.aucBuffer r.iTail :: window r.aucBuffer (nextIndex r.iTail) n) := by
  unfold isEmpty contents
  cases hn : r.numElems.toNat with
  | zero =>
    left
    have hzero : r.numElems = 0 := by
      have := h.nonneg
      omega
    rw [hzero]
    exact ⟨rfl, rfl⟩
  | succ n =>
    right
    refine ⟨?_, n, by omega, rfl⟩
    rw [beq_eq_false_iff_ne]
    omega

/-- Reading takes the first byte of the queue. -/
theorem Wf.readChar {r : RingBufferN N} (h : r.Wf) :
    r.readChar.1 = front r.contents ∧ r.readChar.2.Wf ∧
      r.readChar.2.contents = r.contents.tail := by
  unfold RingBufferN.readChar
  rcases h.contents_cases with ⟨hempty, hq⟩ | ⟨hempty, n, hn, hq⟩
  · rw [if_pos hempty, hq]
    exact ⟨rfl, h, rfl⟩
  · have hlayout := h.layout
    rw [hn, show ((n : Int) + 1).toNat = n + 1 by omega] at hlayout
    rw [if_neg (Bool.eq_false_iff.mp hempty), hq]
    refine ⟨rfl, ⟨by simp only; omega, ?_⟩, ?_⟩
    · simp only [hn, show ((n : Int) + 1 - 1).toNat = n by omega]
      exact hlayout.pop
    · simp only [contents, hn, show ((n : Int) + 1 - 1).toNat = n by omega, List.tail_cons]

theorem Wf.peek {r : RingBufferN N} (h : r.Wf) : r.peek = front r.contents := by
  unfold RingBufferN.peek
  rcases h.contents_cases with ⟨hempty, hq⟩ | ⟨hempty, n, _, hq⟩
  · rw [if_pos hempty, hq]
    rfl
  · rw [if_neg (Bool.eq_false_iff.mp hempty), hq]
    rfl

end RingBufferN

end ArduinoT2.Api
