import ArduinoT2.Lib.BoundedQueue
import ArduinoT2.Lib.StepSys
import ArduinoT2.System.TklQueue
import Mathlib.Data.List.GetD
import Mathlib.Algebra.Group.Nat.Defs

/-
  The queues of FreeRTOS (queue.c) are the bounded FIFOs that the adapter relies on.

  The storage area is a circular buffer of `uxLength` slots: `pcWriteTo` is the next slot to be
  written, `pcReadFrom` the slot read last. `Stores` says which messages a queue object stores,
  for an area of less than 4 GiB; `kernel_refines` is that its calls answer as `KernelQueue`
  does.
-/

namespace ArduinoT2.System

open StepSys BoundedQueue ArduinoT2.Vendor

/-! ## Memory -/

theorem length_bytesAt (mem : Nat → UInt8) (src size : Nat) :
    (bytesAt mem src size).length = size := by
  unfold bytesAt
  rw [List.length_map, List.length_range]

/-- The message in slot `i` of an area of `c` slots of `s` bytes. -/
def slot (mem : Nat → UInt8) (base s : Nat) {c : Nat} (i : Fin c) : List UInt8 :=
  bytesAt mem (base + i.val * s) s

/-- Two slots have no byte in common. -/
theorem slot_apart {i j s x : Nat} (hx : x < s) (h : i ≠ j) :
    ¬(j * s ≤ i * s + x ∧ i * s + x < j * s + s) := by
  rintro ⟨hle, hlt⟩
  rcases Nat.lt_or_gt_of_ne h with hij | hij
  · have hmul : (i + 1) * s ≤ j * s := Nat.mul_le_mul_right s hij
    rw [Nat.succ_mul] at hmul
    omega
  · have hmul : (j + 1) * s ≤ i * s := Nat.mul_le_mul_right s hij
    rw [Nat.succ_mul] at hmul
    omega

/-- A message that is copied to a slot is in that slot, and the others are left. -/
theorem slot_memcpy (mem : Nat → UInt8) (base s : Nat) {c : Nat} (head : Fin c)
    {item : List UInt8} (hlen : item.length = s) :
    slot (memcpy mem (base + head.val * s) item) base s =
      Function.update (slot mem base s) head item := by
  funext i
  rw [Function.update_apply]
  split
  · rename_i heq
    subst heq
    apply List.ext_getElem
    · rw [slot, length_bytesAt, hlen]
    · intro x hx hx'
      simp only [slot, bytesAt, List.getElem_map, List.getElem_range, memcpy]
      rw [if_pos ⟨by omega, by omega⟩, Nat.add_sub_cancel_left, List.getD_eq_getElem _ _ hx']
  · rename_i hne
    unfold slot bytesAt
    refine List.map_congr_left fun x hx => ?_
    have hx' := slot_apart (List.mem_range.mp hx) (fun heq => hne (Fin.ext heq))
    refine if_neg fun h => hx' ?_
    omega

/-! ## Queue objects -/

/-- The queue object `obj` stores the messages of `q`: `head` is the slot to be written next,
    `prev` the one read last. -/
structure StoresAt (mem : Nat → UInt8) (obj : QueueT) (q : KernelQueue) (head prev : Fin q.length) :
    Prop where
  length : obj.uxLength.toNat = q.length
  itemSize : obj.uxItemSize.toNat = q.itemSize
  pos : 0 < q.itemSize
  pcTail : obj.pcTail = obj.pcHead + q.length * q.itemSize
  pcWriteTo : obj.pcWriteTo = obj.pcHead + head.val * q.itemSize
  pcReadFrom : obj.pcReadFrom = obj.pcHead + prev.val * q.itemSize
  waiting : obj.uxMessagesWaiting.toNat = q.items.length
  layout : Layout head (next prev) q.items.length
  items : q.items = window (slot mem obj.pcHead q.itemSize) (next prev) q.items.length

/-- The kernel stores `q` at the address `a`. -/
def Stores (a : Nat) (k : Kernel) (q : KernelQueue) : Prop :=
  ∃ obj head prev, k.queues a = some obj ∧ StoresAt k.mem obj q head prev

/-- A pointer to a slot goes on to the next slot, and from the end to the front. -/
theorem next_slot {base c s : Nat} (hs : 0 < s) (i : Fin c) :
    (if base + i.val * s + s ≥ base + c * s then base else base + i.val * s + s) =
      base + (next i).val * s := by
  have hi := i.isLt
  have hmul : i.val * s + s = (i.val + 1) * s := (Nat.succ_mul _ _).symm
  rw [Nat.add_assoc, hmul]
  unfold next
  simp only
  by_cases hend : i.val + 1 = c
  · rw [hend, if_pos (Nat.le_refl _), Nat.mod_self, Nat.zero_mul, Nat.add_zero]
  · have hlt : i.val + 1 < c := by omega
    have hle : (i.val + 1) * s < c * s := Nat.mul_lt_mul_of_pos_right hlt hs
    rw [if_neg (by omega), Nat.mod_eq_of_lt hlt]

theorem StoresAt.itemSize_ne {mem : Nat → UInt8} {obj : QueueT} {q : KernelQueue}
    {head prev : Fin q.length} (h : StoresAt mem obj q head prev) : obj.uxItemSize ≠ 0 := by
  intro hzero
  have hsize := h.itemSize
  have hpos := h.pos
  rw [hzero] at hsize
  exact absurd hsize (Nat.ne_of_lt hpos)

theorem StoresAt.full_iff {mem : Nat → UInt8} {obj : QueueT} {q : KernelQueue}
    {head prev : Fin q.length} (h : StoresAt mem obj q head prev) :
    obj.uxMessagesWaiting < obj.uxLength ↔ q.items.length < q.length := by
  rw [UInt32.lt_iff_toNat_lt, h.waiting, h.length]

/-- A message that is copied into a queue with room is its last one. -/
theorem StoresAt.push {mem : Nat → UInt8} {obj : QueueT} {q : KernelQueue}
    {head prev : Fin q.length} (h : StoresAt mem obj q head prev)
    (hlt : q.items.length < q.length) {item : List UInt8} (hlen : item.length = q.itemSize) :
    StoresAt (prvCopyDataToQueue mem obj item).1 (prvCopyDataToQueue mem obj item).2
      { q with items := q.items ++ [item] } (next head) prev := by
  have hroom := h.full_iff.mpr hlt
  have hwaiting : (obj.uxMessagesWaiting + 1).toNat = (q.items ++ [item]).length := by
    have hmax := obj.uxLength.toNat_lt
    rw [UInt32.toNat_add, h.waiting, List.length_append]
    exact Nat.mod_eq_of_lt (by have := h.length; simp; omega)
  unfold prvCopyDataToQueue
  rw [if_neg h.itemSize_ne]
  simp only
  refine ⟨h.length, h.itemSize, h.pos, h.pcTail, ?_, h.pcReadFrom, hwaiting, ?_, ?_⟩
  · simp only [h.pcWriteTo, h.itemSize, h.pcTail]
    exact next_slot h.pos head
  · rw [List.length_append]
    exact h.layout.push hlt
  · rw [h.pcWriteTo, slot_memcpy _ _ _ _ hlen, List.length_append, List.length_singleton]
    simp only
    rw [window_push _ h.layout hlt, ← h.items]

/-- The message that is copied out of a queue is its first one. -/
theorem StoresAt.pop {mem : Nat → UInt8} {obj : QueueT} {q : KernelQueue}
    {head prev : Fin q.length} (h : StoresAt mem obj q head prev) {item : List UInt8}
    {items : List (List UInt8)} (hitems : q.items = item :: items) :
    (prvCopyDataFromQueue mem obj).1 = item ∧
      StoresAt mem { (prvCopyDataFromQueue mem obj).2 with
          uxMessagesWaiting := obj.uxMessagesWaiting - 1 }
        { q with items } head (next prev) := by
  have hlength : q.items.length = items.length + 1 := congrArg List.length hitems
  have hwindow := h.items
  rw [hlength, window_pop, hitems] at hwindow
  obtain ⟨hitem, hrest⟩ := List.cons.inj hwindow
  have hlayout := h.layout
  rw [hlength] at hlayout
  have hread : (if obj.pcReadFrom + obj.uxItemSize.toNat ≥ obj.pcTail then obj.pcHead
      else obj.pcReadFrom + obj.uxItemSize.toNat) =
        obj.pcHead + (next prev).val * q.itemSize := by
    rw [h.pcReadFrom, h.itemSize, h.pcTail]
    exact next_slot h.pos prev
  have hwaiting : (obj.uxMessagesWaiting - 1).toNat = items.length := by
    have hle : (1 : UInt32) ≤ obj.uxMessagesWaiting := by
      rw [UInt32.le_iff_toNat_le, h.waiting, hlength]
      exact Nat.succ_le_succ (Nat.zero_le _)
    rw [UInt32.toNat_sub_of_le _ _ hle, h.waiting, hlength]
    rfl
  unfold prvCopyDataFromQueue
  rw [if_pos h.itemSize_ne]
  simp only
  constructor
  · rw [hread, h.itemSize]
    exact hitem.symm
  · exact ⟨h.length, h.itemSize, h.pos, h.pcTail, h.pcWriteTo, hread, hwaiting, hlayout.pop,
      hrest⟩

/-! ## The calls of the kernel -/

/-- The calls on a queue of the kernel. -/
inductive KernelCall
  | send (data : Nat → UInt8) (xTicksToWait : UInt32) (expired : Bool)
  | sendFromISR (data : Nat → UInt8)
  | receive (xTicksToWait : UInt32) (expired : Bool)

/-- One call on the queue object at `a`: the return value, and the bytes for the buffer. -/
def kernelStep (a : Nat) (k : Kernel) (c : KernelCall) :
    Kernel × Option (Option BaseType × List UInt8) :=
  match k.queues a with
  | none => (k, none)
  | some obj =>
    let r : Option (Option BaseType × List UInt8 × Kernel) :=
      match c with
      | .send data xTicksToWait expired =>
        let item := bytesAt data 0 obj.uxItemSize.toNat
        (xQueueGenericSend k a item xTicksToWait expired).map fun r => (r.1, [], r.2)
      | .sendFromISR data =>
        let item := bytesAt data 0 obj.uxItemSize.toNat
        (xQueueGenericSendFromISR k a item).map fun r => (some r.1, [], r.2)
      | .receive xTicksToWait expired => xQueueGenericReceive k a xTicksToWait expired
    match r with
    | none => (k, none)
    | some (ret, bytes, k) => (k, some (ret, bytes))

/-- One call on a bounded FIFO. -/
def fifoStep (q : KernelQueue) : KernelCall → KernelQueue × Option BaseType × List UInt8
  | .send data xTicksToWait expired =>
    let (ret, q) := xQueueSend q data xTicksToWait expired
    (q, ret, [])
  | .sendFromISR data =>
    let (ret, q) := xQueueSendFromISR q data
    (q, some ret, [])
  | .receive xTicksToWait expired =>
    let (ret, bytes, q) := xQueueReceive q xTicksToWait expired
    (q, ret, bytes)

theorem stores_set {a : Nat} {k : Kernel} {mem : Nat → UInt8} {obj : QueueT} {q : KernelQueue}
    {head prev : Fin q.length} (h : StoresAt mem obj q head prev) :
    Stores a ({ k with mem }.set a obj) q :=
  ⟨obj, head, prev, Function.update_self .., h⟩

/-- A call on a queue object answers as one on the FIFO that it stores, and stores the FIFO behind
    the call. -/
theorem kernelStep_refines {a : Nat} {k : Kernel} {q : KernelQueue} (h : Stores a k q)
    (c : KernelCall) : Stores a (kernelStep a k c).1 (fifoStep q c).1 ∧
      (kernelStep a k c).2 = some (fifoStep q c).2 := by
  have hk := h
  obtain ⟨obj, head, prev, hobj, hstores⟩ := h
  have hitem : ∀ data, (bytesAt data 0 q.itemSize).length = q.itemSize := fun data =>
    length_bytesAt data 0 q.itemSize
  unfold kernelStep fifoStep
  cases c with
  | send data xTicksToWait expired =>
    simp only [hobj, xQueueGenericSend, xQueueSend, hstores.itemSize, KernelQueue.itemAt]
    by_cases hlt : q.items.length < q.length
    · rw [if_pos (hstores.full_iff.mpr hlt), if_pos hlt]
      exact ⟨stores_set (hstores.push hlt (hitem data)), rfl⟩
    · rw [if_neg fun hroom => hlt (hstores.full_iff.mp hroom), if_neg hlt]
      exact ⟨hk, rfl⟩
  | sendFromISR data =>
    simp only [hobj, xQueueGenericSendFromISR, xQueueSendFromISR, hstores.itemSize,
      KernelQueue.itemAt]
    by_cases hlt : q.items.length < q.length
    · rw [if_pos (hstores.full_iff.mpr hlt), if_pos hlt]
      exact ⟨stores_set (hstores.push hlt (hitem data)), rfl⟩
    · rw [if_neg fun hroom => hlt (hstores.full_iff.mp hroom), if_neg hlt]
      exact ⟨hk, rfl⟩
  | receive xTicksToWait expired =>
    have hsome : obj.uxMessagesWaiting > 0 ↔ 0 < q.items.length := by
      rw [gt_iff_lt, UInt32.lt_iff_toNat_lt, hstores.waiting]
      exact Iff.rfl
    simp only [hobj, xQueueGenericReceive, xQueueReceive]
    cases hitems : q.items with
    | nil =>
      rw [hitems] at hsome
      rw [if_neg fun hpos => absurd (hsome.mp hpos) (Nat.lt_irrefl 0)]
      exact ⟨hk, rfl⟩
    | cons item items =>
      rw [hitems] at hsome
      rw [if_pos (hsome.mpr (Nat.succ_pos _))]
      obtain ⟨hbytes, hrest⟩ := hstores.pop hitems
      exact ⟨stores_set hrest, by rw [hbytes]⟩

/-- A new queue object stores the empty queue. -/
theorem stores_create (k : Kernel) {a : Nat} (ha : a ≠ 0) {c s : UInt32} (hc : 0 < c) (hs : 0 < s)
    (hfits : c.toNat * s.toNat < 2 ^ 32) :
    Stores a (xQueueGenericCreate k a c s).2 (xQueueCreate c.toNat s.toNat) := by
  have hc' : 0 < c.toNat := hc
  have hs' : s ≠ 0 := fun hzero => absurd (hzero ▸ hs) (by decide)
  have hmul : (c * s).toNat = c.toNat * s.toNat := by
    rw [UInt32.toNat_mul]
    exact Nat.mod_eq_of_lt hfits
  have hpred : (c - 1).toNat = c.toNat - 1 := UInt32.toNat_sub_of_le _ _ hc
  have hlast : ((c - 1) * s).toNat = (c.toNat - 1) * s.toNat := by
    rw [UInt32.toNat_mul, hpred]
    refine Nat.mod_eq_of_lt (Nat.lt_of_le_of_lt ?_ hfits)
    exact Nat.mul_le_mul_right _ (Nat.sub_le _ _)
  have hlt : c.toNat - 1 < c.toNat := Nat.sub_lt hc' Nat.one_pos
  have hnext : next (⟨c.toNat - 1, hlt⟩ : Fin c.toNat) = ⟨0, hc'⟩ := by
    apply Fin.ext
    show (c.toNat - 1 + 1) % c.toNat = 0
    rw [Nat.sub_add_cancel hc', Nat.mod_self]
  unfold xQueueGenericCreate
  rw [if_pos ha]
  refine ⟨_, ⟨0, hc'⟩, ⟨c.toNat - 1, hlt⟩, Function.update_self .., ?_⟩
  unfold prvInitialiseNewQueue xQueueGenericReset xQueueCreate
  simp only [if_neg hs']
  refine ⟨rfl, rfl, hs, ?_, ?_, ?_, rfl, ?_, rfl⟩
  · rw [hmul]
  · rw [Nat.zero_mul, Nat.add_zero]
  · rw [hlast]
  · rw [hnext]
    exact Layout.empty _

/-- The calls on a new queue of FreeRTOS answer as those on a bounded FIFO. -/
theorem kernel_refines (k : Kernel) {a : Nat} (ha : a ≠ 0) {c s : UInt32} (hc : 0 < c)
    (hs : 0 < s) (hfits : c.toNat * s.toNat < 2 ^ 32) (calls : List KernelCall) :
    outputs (kernelStep a) (xQueueGenericCreate k a c s).2 calls =
      (outputs fifoStep (xQueueCreate c.toNat s.toNat) calls).map some :=
  (run_simulates (A := Stores a) (C := fun _ _ => True) some
    (fun _ _ call h _ => kernelStep_refines h call) (stores_create k ha hc hs hfits)
    (along_of_forall (fun _ _ => trivial) _ calls)).2

end ArduinoT2.System
