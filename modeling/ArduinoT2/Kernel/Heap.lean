import ArduinoT2.Lib.NextList
import ArduinoT2.Lib.Spans
import Mathlib.Data.Nat.Bitwise

/-
  The heap of the kernel: heap_4.c. The platform has two heaps to choose from, and platform.txt
  compiles the other one, heap_6.c.

  Every block starts at a multiple of eight and every access to a header or to the contents of a
  block is one of eight aligned bytes, so the memory is a map from addresses to cells of two
  words: the fields of `BlockLink_t` in a header, two words of the application elsewhere. A
  pointer is an address or NULL (`none`). Sizes and addresses are natural numbers: the region
  lies below 2 ^ 31, and a request of 2 ^ 31 bytes or more is turned down before anything is added
  to it.

  `pvPortRealloc` copies with `os_memcpy`, the `memcpy` of the C library, which is a parameter
  (`OsMemcpy`): what it does where source and destination overlap is open.

  A function returns `none` where the source would dereference NULL or go on in its list for more
  rounds than the region has cells; Kernel.FreeList and Kernel.Malloc have that this never
  happens.
-/

namespace ArduinoT2.Kernel

/-! ## The memory -/

/-- The two words of every aligned cell, `BlockLink_t` of a block that starts there. -/
@[ext] structure Mem where
  pxNextFreeBlock : Nat → Option Nat
  xBlockSize : Nat → Nat

/-- Stores to `pxNextFreeBlock` of the cell at `a`. -/
def Mem.setNext (m : Mem) (a : Nat) (next : Option Nat) : Mem :=
  { m with pxNextFreeBlock := Function.update m.pxNextFreeBlock a next }

/-- Stores to `xBlockSize` of the cell at `a`. -/
def Mem.setSize (m : Mem) (a : Nat) (size : Nat) : Mem :=
  { m with xBlockSize := Function.update m.xBlockSize a size }

section Stores

variable (m : Mem) (a : Nat)

@[simp] theorem Mem.next_setNext (next : Option Nat) :
    (m.setNext a next).pxNextFreeBlock = Function.update m.pxNextFreeBlock a next := rfl

@[simp] theorem Mem.size_setNext (next : Option Nat) :
    (m.setNext a next).xBlockSize = m.xBlockSize := rfl

@[simp] theorem Mem.next_setSize (size : Nat) :
    (m.setSize a size).pxNextFreeBlock = m.pxNextFreeBlock := rfl

@[simp] theorem Mem.size_setSize (size : Nat) :
    (m.setSize a size).xBlockSize = Function.update m.xBlockSize a size := rfl

end Stores

/-- The two memories agree on a cell. -/
def SameCell (m m' : Mem) (x : Nat) : Prop :=
  m'.pxNextFreeBlock x = m.pxNextFreeBlock x ∧ m'.xBlockSize x = m.xBlockSize x

theorem SameCell.refl (m : Mem) (x : Nat) : SameCell m m x := ⟨rfl, rfl⟩

theorem SameCell.trans {m m' m'' : Mem} {x : Nat} (h : SameCell m m' x) (h' : SameCell m' m'' x) :
    SameCell m m'' x := ⟨h'.1.trans h.1, h'.2.trans h.2⟩

theorem SameCell.setNext (m : Mem) {a x : Nat} (h : x ≠ a) (next : Option Nat) :
    SameCell m (m.setNext a next) x := ⟨Function.update_of_ne h _ _, rfl⟩

theorem SameCell.setSize (m : Mem) {a x : Nat} (h : x ≠ a) (size : Nat) :
    SameCell m (m.setSize a size) x := ⟨rfl, Function.update_of_ne h _ _⟩

/-- `portBYTE_ALIGNMENT`. -/
def portByteAlignment : Nat := 8

/-- `portBYTE_ALIGNMENT_MASK`. -/
def portByteAlignmentMask : Nat := 7

/-- `xHeapStructSize`. -/
def xHeapStructSize : Nat := 8

/-- `heapMINIMUM_BLOCK_SIZE`. -/
def heapMinimumBlockSize : Nat := xHeapStructSize * 2

/-- `x & ~portBYTE_ALIGNMENT_MASK`. -/
def alignDown (x : Nat) : Nat := x - (x &&& portByteAlignmentMask)

/-- The places the linker gives to the allocator: `xStart` in the data of the kernel, and the
    memory from the end of all data to the end of the RAM. -/
structure Region where
  xStart : Nat
  ucHeap : Nat
  xTotalHeapSize : Nat
  start_below : xStart < ucHeap
  room : 40 ≤ xTotalHeapSize
  below_top_bit : ucHeap + xTotalHeapSize ≤ 2147483648

/-- The memory and the variables of the allocator. -/
structure Heap where
  mem : Mem
  pxEnd : Option Nat
  xFreeBytesRemaining : Nat
  xMinimumEverFreeBytesRemaining : Nat
  xBlockAllocatedBit : Nat

/-- `x & ~xBlockAllocatedBit`. -/
def Heap.sizeBits (s : Heap) (x : Nat) : Nat := x &&& (4294967295 - s.xBlockAllocatedBit)

/-- The rounds of a loop over the blocks: no block is smaller than a cell. -/
def Region.rounds (r : Region) : Nat := r.xTotalHeapSize / xHeapStructSize + 2

/-! ## The free list -/

/-- `prvHeapInit`. -/
def prvHeapInit (r : Region) (s : Heap) : Heap :=
  let uxAddress := r.ucHeap
  let xTotalHeapSize := r.xTotalHeapSize
  let (uxAddress, xTotalHeapSize) :=
    if uxAddress &&& portByteAlignmentMask ≠ 0 then
      let uxAddress := alignDown (uxAddress + (portByteAlignment - 1))
      (uxAddress, xTotalHeapSize - (uxAddress - r.ucHeap))
    else (uxAddress, xTotalHeapSize)
  let pucAlignedHeap := uxAddress
  let m := s.mem
  let m := m.setNext r.xStart (some pucAlignedHeap)
  let m := m.setSize r.xStart 0
  let uxAddress := alignDown (pucAlignedHeap + xTotalHeapSize - xHeapStructSize)
  let pxEnd := uxAddress
  let m := m.setSize pxEnd 0
  let m := m.setNext pxEnd none
  let pxFirstFreeBlock := pucAlignedHeap
  let m := m.setSize pxFirstFreeBlock (uxAddress - pxFirstFreeBlock)
  let m := m.setNext pxFirstFreeBlock (some pxEnd)
  { mem := m
    pxEnd := some pxEnd
    xFreeBytesRemaining := uxAddress - pxFirstFreeBlock
    xMinimumEverFreeBytesRemaining := uxAddress - pxFirstFreeBlock
    xBlockAllocatedBit := 1 <<< 31 }

/-- The loop of `prvInsertBlockIntoFreeList` from `pxIterator` on. -/
def insertPlace (m : Mem) (pxBlockToInsert : Nat) : Nat → Nat → Option Nat
  | 0, _ => none
  | rounds + 1, pxIterator =>
    match m.pxNextFreeBlock pxIterator with
    | none => none
    | some next =>
      if next < pxBlockToInsert then insertPlace m pxBlockToInsert rounds next
      else some pxIterator

/-- `prvInsertBlockIntoFreeList` behind its loop. -/
def insertBehind (m : Mem) (pxEnd : Option Nat) (pxIterator pxBlockToInsert : Nat) : Mem :=
  let (m, pxBlockToInsert) :=
    if pxIterator + m.xBlockSize pxIterator = pxBlockToInsert then
      (m.setSize pxIterator (m.xBlockSize pxIterator + m.xBlockSize pxBlockToInsert), pxIterator)
    else (m, pxBlockToInsert)
  let m :=
    match m.pxNextFreeBlock pxIterator with
    | some next =>
      if pxBlockToInsert + m.xBlockSize pxBlockToInsert = next then
        if some next ≠ pxEnd then
          let m := m.setSize pxBlockToInsert (m.xBlockSize pxBlockToInsert + m.xBlockSize next)
          m.setNext pxBlockToInsert (m.pxNextFreeBlock next)
        else m.setNext pxBlockToInsert pxEnd
      else m.setNext pxBlockToInsert (some next)
    | none => m.setNext pxBlockToInsert none
  if pxIterator ≠ pxBlockToInsert then m.setNext pxIterator (some pxBlockToInsert) else m

/-- `prvInsertBlockIntoFreeList`. -/
def prvInsertBlockIntoFreeList (r : Region) (s : Heap) (pxBlockToInsert : Nat) : Option Heap := do
  let pxIterator ← insertPlace s.mem pxBlockToInsert r.rounds r.xStart
  return { s with mem := insertBehind s.mem s.pxEnd pxIterator pxBlockToInsert }

/-! ## Allocation -/

/-- The loop of `malloc_without_lock` from `pxPreviousBlock` on: it and the block behind it where
    the loop ends. -/
def searchBlock (m : Mem) (xWantedSize : Nat) : Nat → Nat → Option (Nat × Nat)
  | 0, _ => none
  | rounds + 1, pxPreviousBlock =>
    match m.pxNextFreeBlock pxPreviousBlock with
    | none => none
    | some pxBlock =>
      if m.xBlockSize pxBlock < xWantedSize ∧ m.pxNextFreeBlock pxBlock ≠ none then
        searchBlock m xWantedSize rounds pxBlock
      else some (pxPreviousBlock, pxBlock)

/-- The size of the block for a request. -/
def wantedSize (xWantedSize : Nat) : Nat :=
  if 0 < xWantedSize then
    let xWantedSize := xWantedSize + xHeapStructSize
    if xWantedSize &&& portByteAlignmentMask ≠ 0 then
      xWantedSize + (portByteAlignment - (xWantedSize &&& portByteAlignmentMask))
    else xWantedSize
  else xWantedSize

/-- The end of `malloc_without_lock`, where the block goes to the application. -/
def grantBlock (s : Heap) (pxBlock : Nat) : Heap :=
  let s := { s with xFreeBytesRemaining := s.xFreeBytesRemaining - s.mem.xBlockSize pxBlock }
  let s :=
    if s.xFreeBytesRemaining < s.xMinimumEverFreeBytesRemaining then
      { s with xMinimumEverFreeBytesRemaining := s.xFreeBytesRemaining }
    else s
  let m := s.mem.setSize pxBlock (s.mem.xBlockSize pxBlock ||| s.xBlockAllocatedBit)
  let m := m.setNext pxBlock none
  { s with mem := m }

/-- `malloc_without_lock` once its search has found a block: what the caller gets. -/
def takeBlock (r : Region) (s : Heap) (pxPreviousBlock pxBlock xWantedSize : Nat) :
    Option (Option Nat × Heap) := do
  let pvReturn := (s.mem.pxNextFreeBlock pxPreviousBlock).map (· + xHeapStructSize)
  let s := { s with mem := s.mem.setNext pxPreviousBlock (s.mem.pxNextFreeBlock pxBlock) }
  let s ←
    if s.mem.xBlockSize pxBlock - xWantedSize > heapMinimumBlockSize then
      let pxNewBlockLink := pxBlock + xWantedSize
      let m := s.mem.setSize pxNewBlockLink (s.mem.xBlockSize pxBlock - xWantedSize)
      let m := m.setSize pxBlock xWantedSize
      prvInsertBlockIntoFreeList r { s with mem := m } pxNewBlockLink
    else some s
  return (pvReturn, grantBlock s pxBlock)

/-- `malloc_without_lock`: the pointer and the heap behind the call. -/
def mallocWithoutLock (r : Region) (s : Heap) (xWantedSize : Nat) : Option (Option Nat × Heap) :=
  let s := if s.pxEnd = none then prvHeapInit r s else s
  if xWantedSize &&& s.xBlockAllocatedBit = 0 then
    let xWantedSize := wantedSize xWantedSize
    if 0 < xWantedSize ∧ xWantedSize ≤ s.xFreeBytesRemaining then do
      let (pxPreviousBlock, pxBlock) ← searchBlock s.mem xWantedSize r.rounds r.xStart
      if some pxBlock ≠ s.pxEnd then takeBlock r s pxPreviousBlock pxBlock xWantedSize
      else return (none, s)
    else return (none, s)
  else return (none, s)

/-- `pvPortMalloc`. -/
def pvPortMalloc (r : Region) (s : Heap) (xWantedSize : UInt32) : Option (Option Nat × Heap) :=
  let xWantedSize := if xWantedSize = 0 then 4 else xWantedSize
  mallocWithoutLock r s xWantedSize.toNat

/-- `vPortFree`. -/
def vPortFree (r : Region) (s : Heap) (pv : Option Nat) : Option Heap :=
  match pv with
  | none => some s
  | some pv =>
    let pxLink := pv - xHeapStructSize
    if s.mem.xBlockSize pxLink &&& s.xBlockAllocatedBit ≠ 0 then
      if s.mem.pxNextFreeBlock pxLink = none then
        let s := { s with mem := s.mem.setSize pxLink (s.sizeBits (s.mem.xBlockSize pxLink)) }
        let s := { s with
          xFreeBytesRemaining := s.xFreeBytesRemaining + s.mem.xBlockSize pxLink }
        prvInsertBlockIntoFreeList r s pxLink
      else some s
    else some s

/-! ## Reallocation -/

/-- The `cells` cells at `dst` of `m'` have what those at `src` of `m` have. -/
def Copied (m m' : Mem) (dst src cells : Nat) : Prop :=
  ∀ i < cells, m'.pxNextFreeBlock (dst + 8 * i) = m.pxNextFreeBlock (src + 8 * i) ∧
    m'.xBlockSize (dst + 8 * i) = m.xBlockSize (src + 8 * i)

/-- `os_memcpy` of aligned cells: `copy m dst src cells` is the memory behind it. It writes to its
    destination alone, and where source and destination do not overlap it writes there what is in
    the source. -/
structure OsMemcpy where
  copy : Mem → Nat → Nat → Nat → Mem
  outside : ∀ {m dst src cells x}, (∀ i < cells, x ≠ dst + 8 * i) →
    SameCell m (copy m dst src cells) x
  apart : ∀ {m dst src cells}, dst + 8 * cells ≤ src ∨ src + 8 * cells ≤ dst →
    Copied m (copy m dst src cells) dst src cells

/-- The copy is right also onto a source that starts behind its destination, as one from front to
    back is. C does not promise it. -/
def OsMemcpy.CopiesDown (cpy : OsMemcpy) : Prop :=
  ∀ {m dst src cells}, dst ≤ src → Copied m (cpy.copy m dst src cells) dst src cells

/-- The loop of `pvPortRealloc` that takes the block out of the free list again. -/
def takeBack (m : Mem) (pxLink presize : Nat) : Nat → Nat → Option Nat → Option Mem
  | _, _, none => some m
  | 0, _, some _ => none
  | rounds + 1, pxPreviousBlock, some pxIterator =>
    let size := m.xBlockSize pxIterator
    if pxLink < pxIterator then some m
    else if pxIterator = pxLink then
      if presize < size then
        let tmp := pxLink + presize
        let m := m.setSize tmp (size - presize)
        let m := m.setNext tmp (m.pxNextFreeBlock pxIterator)
        some (m.setNext pxPreviousBlock (some tmp))
      else some (m.setNext pxPreviousBlock (m.pxNextFreeBlock pxIterator))
    else if pxIterator + size = pxLink + presize then
      some (m.setSize pxIterator (size - presize))
    else if pxLink + presize < pxIterator + size then
      let pxPreviousBlock := pxIterator
      let pxIterator := pxLink + presize
      let m := m.setSize pxIterator
        (pxPreviousBlock + m.xBlockSize pxPreviousBlock - (pxLink + presize))
      let tmp := m.pxNextFreeBlock pxPreviousBlock
      let m := m.setNext pxPreviousBlock (some pxIterator)
      let m := m.setSize pxPreviousBlock (pxLink - pxPreviousBlock)
      some (m.setNext pxIterator tmp)
    else takeBack m pxLink presize rounds pxIterator (m.pxNextFreeBlock pxIterator)

/-- The end of `pvPortRealloc`, behind its call of `malloc_without_lock`. -/
def reallocEnd (cpy : OsMemcpy) (r : Region) (pv presize : Nat) :
    Option Nat × Heap → Option (Option Nat × Heap)
  | (some pvReturn, s) =>
    let datasize := presize - xHeapStructSize
    if pvReturn ≠ pv then
      some (some pvReturn,
        { s with mem := cpy.copy s.mem pvReturn pv (datasize / xHeapStructSize) })
    else some (some pvReturn, s)
  | (none, s) => do
    let pxLink := pv - xHeapStructSize
    let m ← takeBack s.mem pxLink presize r.rounds r.xStart (s.mem.pxNextFreeBlock r.xStart)
    let m := m.setSize pxLink (presize ||| s.xBlockAllocatedBit)
    let m := m.setNext pxLink none
    return (none, { s with
      mem := m
      xFreeBytesRemaining := s.xFreeBytesRemaining - presize })

/-- `pvPortRealloc`. -/
def pvPortRealloc (cpy : OsMemcpy) (r : Region) (s : Heap) (pv : Option Nat)
    (xWantedSize : UInt32) : Option (Option Nat × Heap) :=
  match pv with
  | none => pvPortMalloc r s xWantedSize
  | some pv => do
    let pxLink := pv - xHeapStructSize
    let presize := s.sizeBits (s.mem.xBlockSize pxLink)
    let datasize := presize - xHeapStructSize
    if xWantedSize.toNat ≤ datasize then return (some pv, s)
    let s := { s with mem := s.mem.setSize pxLink (s.sizeBits (s.mem.xBlockSize pxLink)) }
    let s := { s with xFreeBytesRemaining := s.xFreeBytesRemaining + s.mem.xBlockSize pxLink }
    let s ← prvInsertBlockIntoFreeList r s pxLink
    let result ← mallocWithoutLock r s xWantedSize.toNat
    reallocEnd cpy r pv presize result

/-! ## Bits and bounds -/

theorem and_mask (x : Nat) : x &&& portByteAlignmentMask = x % 8 :=
  Nat.and_two_pow_sub_one_eq_mod x 3

theorem alignDown_eq (x : Nat) : alignDown x = x / 8 * 8 := by
  unfold alignDown
  rw [and_mask]
  omega

theorem and_bit_of_lt {x : Nat} (h : x < 2147483648) : x &&& 2147483648 = 0 := by
  have ht : x.testBit 31 = false := Nat.testBit_lt_two_pow h
  rw [show 2147483648 = 2 ^ 31 by rfl, Nat.and_two_pow, ht]
  rfl

/-- A request of a machine word is turned down where its top bit is set. -/
theorem and_bit_eq_zero {x : Nat} (h : x < 4294967296) :
    x &&& 2147483648 = 0 ↔ x < 2147483648 := by
  refine ⟨fun hx => ?_, and_bit_of_lt⟩
  by_contra hlt
  have ht : x.testBit 31 = true := Nat.testBit_of_two_pow_le_and_two_pow_add_one_gt
    (Nat.le_of_not_lt hlt) h
  rw [show 2147483648 = 2 ^ 31 by rfl, Nat.and_two_pow, ht] at hx
  cases hx

theorem or_bit_of_lt {x : Nat} (h : x < 2147483648) : x ||| 2147483648 = x + 2147483648 :=
  Nat.or_two_pow_eq_add_of_lt (n := 31) h

theorem add_bit_and {x : Nat} (h : x < 2147483648) : (x + 2147483648) &&& 2147483648 ≠ 0 := by
  rw [← or_bit_of_lt h, Nat.and_or_distrib_right, Nat.and_self, and_bit_of_lt h]
  decide

theorem sizeBits_add {s : Heap} (hs : s.xBlockAllocatedBit = 2147483648) {x : Nat}
    (h : x < 2147483648) : s.sizeBits (x + 2147483648) = x := by
  unfold Heap.sizeBits
  rw [hs, Nat.and_two_pow_sub_one_eq_mod _ 31]
  omega

/-- The address of the first block. -/
def Region.first (r : Region) : Nat := (r.ucHeap + 7) / 8 * 8

/-- The address of `pxEnd`. -/
def Region.last (r : Region) : Nat := (r.ucHeap + r.xTotalHeapSize - 8) / 8 * 8

theorem Region.bounds (r : Region) :
    r.ucHeap ≤ r.first ∧ r.first + 16 ≤ r.last ∧ r.last + 8 ≤ r.ucHeap + r.xTotalHeapSize := by
  have hroom := r.room
  unfold Region.first Region.last
  omega

/-- All the memory there is for blocks. -/
def Region.whole (r : Region) : Spans.Span Nat where
  lo := r.first
  hi := r.last
  lo_lt_hi := Nat.lt_of_lt_of_le (Nat.lt_add_of_pos_right (by decide)) r.bounds.2.1

theorem prvHeapInit_eq (r : Region) (s : Heap) :
    prvHeapInit r s =
      { mem := (((((s.mem.setNext r.xStart (some r.first)).setSize r.xStart 0).setSize
          r.last 0).setNext r.last none).setSize r.first (r.last - r.first)).setNext r.first
          (some r.last)
        pxEnd := some r.last
        xFreeBytesRemaining := r.last - r.first
        xMinimumEverFreeBytesRemaining := r.last - r.first
        xBlockAllocatedBit := 2147483648 } := by
  have hroom := r.room
  unfold prvHeapInit
  by_cases halign : r.ucHeap &&& portByteAlignmentMask ≠ 0
  · have hfirst : alignDown (r.ucHeap + (portByteAlignment - 1)) = r.first := alignDown_eq _
    have hlast : alignDown (r.first + (r.xTotalHeapSize - (r.first - r.ucHeap))
        - xHeapStructSize) = r.last := by
      rw [alignDown_eq]
      unfold Region.first Region.last xHeapStructSize
      omega
    simp only [if_pos halign, hfirst, hlast]
    rfl
  · have hmod : r.ucHeap % 8 = 0 := by
      rw [and_mask] at halign
      exact not_not.mp halign
    have hfirst : r.ucHeap = r.first := by
      unfold Region.first
      omega
    have hlast : alignDown (r.ucHeap + r.xTotalHeapSize - xHeapStructSize) = r.last :=
      alignDown_eq _
    simp only [if_neg halign, hlast]
    rw [← hfirst]
    rfl

/-- The size of the block for a request: a cell for the header and the request, in whole cells. -/
theorem wantedSize_eq {n : Nat} (hn : 0 < n) : wantedSize n = (n + 15) / 8 * 8 := by
  unfold wantedSize
  simp only [and_mask, if_pos hn, xHeapStructSize, portByteAlignment]
  split <;> omega

end ArduinoT2.Kernel
