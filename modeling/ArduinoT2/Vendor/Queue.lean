import Mathlib.Logic.Function.Basic

/-
  The queues of FreeRTOS (queue.c), which are its semaphores too.

  A queue object is at an address, and its storage area behind it; a semaphore is a queue with
  items of size 0, without storage. A call that waits for room or for a message is modelled from
  one turn of its loop to the next: `none` in place of a return value is that it goes on waiting.

  Mutexes (queues with a `pcHead` of NULL), the lists of the tasks that wait and the locks that
  keep interrupts from these lists are not modelled: they decide which task goes on.
-/

namespace ArduinoT2.Vendor

/-! ## Objects -/

/-- `BaseType_t`, as a return value. -/
abbrev BaseType := Int

abbrev pdPASS : BaseType := 1
abbrev errQueueFull : BaseType := 0
abbrev errQueueEmpty : BaseType := 0

/-- `portMAX_DELAY`. -/
def portMaxDelay : UInt32 := 0xffffffff

/-- `portTICK_RATE_MS`: 1000 through the `configTICK_RATE_HZ` of 500. -/
def portTickRateMs : UInt32 := 1000 / 500

/-- `Queue_t`. `pcHead` is its first word. -/
structure QueueT where
  pcHead : Nat
  pcTail : Nat
  pcWriteTo : Nat
  pcReadFrom : Nat
  uxMessagesWaiting : UInt32
  uxLength : UInt32
  uxItemSize : UInt32
  deriving DecidableEq

/-- `sizeof(Queue_t)`. -/
def sizeofQueueT : Nat := 80

/-- The queue objects that exist, by their addresses, and the bytes of the storage areas. -/
structure Kernel where
  queues : Nat → Option QueueT
  mem : Nat → UInt8

/-- The kernel before the first queue. -/
def Kernel.static : Kernel := ⟨fun _ => none, fun _ => 0⟩

/-- The queue object at `xQueue` becomes `q`. -/
def Kernel.set (k : Kernel) (xQueue : Nat) (q : QueueT) : Kernel :=
  { k with queues := Function.update k.queues xQueue (some q) }

/-- `memcpy` to `dst`. -/
def memcpy (mem : Nat → UInt8) (dst : Nat) (bytes : List UInt8) : Nat → UInt8 :=
  fun a => if dst ≤ a ∧ a < dst + bytes.length then bytes.getD (a - dst) 0 else mem a

/-- The `size` bytes at `src`. -/
def bytesAt (mem : Nat → UInt8) (src size : Nat) : List UInt8 :=
  (List.range size).map fun i => mem (src + i)

/-! ## Creation -/

/-- `xQueueGenericReset` of a new queue. -/
def xQueueGenericReset (q : QueueT) : QueueT :=
  { q with
    pcTail := q.pcHead + (q.uxLength * q.uxItemSize).toNat
    uxMessagesWaiting := 0
    pcWriteTo := q.pcHead
    pcReadFrom := q.pcHead + ((q.uxLength - 1) * q.uxItemSize).toNat }

/-- `prvInitialiseNewQueue`. -/
def prvInitialiseNewQueue (uxQueueLength uxItemSize : UInt32) (pucQueueStorage pxNewQueue : Nat) :
    QueueT :=
  xQueueGenericReset
    { pcHead := if uxItemSize = 0 then pxNewQueue else pucQueueStorage
      pcTail := 0, pcWriteTo := 0, pcReadFrom := 0, uxMessagesWaiting := 0
      uxLength := uxQueueLength, uxItemSize }

/-- `xQueueGenericCreate`: the handle, where `pxNewQueue` is what `pvPortMalloc` returns. -/
def xQueueGenericCreate (k : Kernel) (pxNewQueue : Nat) (uxQueueLength uxItemSize : UInt32) :
    Nat × Kernel :=
  if pxNewQueue ≠ 0 then
    (pxNewQueue, k.set pxNewQueue
      (prvInitialiseNewQueue uxQueueLength uxItemSize (pxNewQueue + sizeofQueueT) pxNewQueue))
  else (0, k)

/-- `xQueueCreateCountingSemaphore`. -/
def xQueueCreateCountingSemaphore (k : Kernel) (pxNewQueue : Nat)
    (uxMaxCount uxInitialCount : UInt32) : Nat × Kernel :=
  let (xHandle, k) := xQueueGenericCreate k pxNewQueue uxMaxCount 0
  match k.queues xHandle with
  | some q =>
    if xHandle ≠ 0 then (xHandle, k.set xHandle { q with uxMessagesWaiting := uxInitialCount })
    else (xHandle, k)
  | none => (xHandle, k)

/-- `vQueueDelete`. -/
def vQueueDelete (k : Kernel) (xQueue : Nat) : Option Kernel :=
  match k.queues xQueue with
  | none => none
  | some _ => some { k with queues := Function.update k.queues xQueue none }

/-! ## Items -/

/-- `prvCopyDataToQueue` to the back of the queue: the storage and the object. -/
def prvCopyDataToQueue (mem : Nat → UInt8) (q : QueueT) (item : List UInt8) :
    (Nat → UInt8) × QueueT :=
  if q.uxItemSize = 0 then (mem, { q with uxMessagesWaiting := q.uxMessagesWaiting + 1 })
  else
    let pcWriteTo := q.pcWriteTo + q.uxItemSize.toNat
    (memcpy mem q.pcWriteTo item,
      { q with
        pcWriteTo := if pcWriteTo ≥ q.pcTail then q.pcHead else pcWriteTo
        uxMessagesWaiting := q.uxMessagesWaiting + 1 })

/-- `prvCopyDataFromQueue`: the bytes for the buffer, and the object. -/
def prvCopyDataFromQueue (mem : Nat → UInt8) (q : QueueT) : List UInt8 × QueueT :=
  if q.uxItemSize ≠ 0 then
    let pcReadFrom := q.pcReadFrom + q.uxItemSize.toNat
    let pcReadFrom := if pcReadFrom ≥ q.pcTail then q.pcHead else pcReadFrom
    (bytesAt mem pcReadFrom q.uxItemSize.toNat, { q with pcReadFrom })
  else ([], q)

/-- `xTaskCheckForTimeOut`: a wait for `portMAX_DELAY` has no end. -/
def xTaskCheckForTimeOut (expired : Bool) (xTicksToWait : UInt32) : Bool :=
  expired && xTicksToWait != portMaxDelay

/-- What a call does that finds no room, or no message: it fails, or it goes on waiting. -/
def giveUp (expired : Bool) (xTicksToWait : UInt32) (err : BaseType) : Option BaseType :=
  if xTicksToWait = 0 then some err
  else if xTaskCheckForTimeOut expired xTicksToWait then some err
  else none

/-- A turn of `xQueueGenericSend` to the back of the queue. -/
def xQueueGenericSend (k : Kernel) (xQueue : Nat) (item : List UInt8) (xTicksToWait : UInt32)
    (expired : Bool) : Option (Option BaseType × Kernel) :=
  match k.queues xQueue with
  | none => none
  | some q =>
    if q.uxMessagesWaiting < q.uxLength then
      let (mem, q) := prvCopyDataToQueue k.mem q item
      some (some pdPASS, { k with mem }.set xQueue q)
    else some (giveUp expired xTicksToWait errQueueFull, k)

/-- `xQueueGenericSendFromISR` to the back of the queue. -/
def xQueueGenericSendFromISR (k : Kernel) (xQueue : Nat) (item : List UInt8) :
    Option (BaseType × Kernel) :=
  match k.queues xQueue with
  | none => none
  | some q =>
    if q.uxMessagesWaiting < q.uxLength then
      let (mem, q) := prvCopyDataToQueue k.mem q item
      some (pdPASS, { k with mem }.set xQueue q)
    else some (errQueueFull, k)

/-- `xQueueGiveFromISR`. -/
def xQueueGiveFromISR (k : Kernel) (xQueue : Nat) : Option (BaseType × Kernel) :=
  match k.queues xQueue with
  | none => none
  | some q =>
    if q.uxMessagesWaiting < q.uxLength then
      some (pdPASS, k.set xQueue { q with uxMessagesWaiting := q.uxMessagesWaiting + 1 })
    else some (errQueueFull, k)

/-- A turn of `xQueueGenericReceive`, which takes the message: with the return value, the bytes
    for the buffer. -/
def xQueueGenericReceive (k : Kernel) (xQueue : Nat) (xTicksToWait : UInt32) (expired : Bool) :
    Option (Option BaseType × List UInt8 × Kernel) :=
  match k.queues xQueue with
  | none => none
  | some q =>
    if q.uxMessagesWaiting > 0 then
      let (bytes, q') := prvCopyDataFromQueue k.mem q
      some (some pdPASS, bytes,
        k.set xQueue { q' with uxMessagesWaiting := q.uxMessagesWaiting - 1 })
    else some (giveUp expired xTicksToWait errQueueEmpty, [], k)

end ArduinoT2.Vendor
